import NameserverAudit.Proofs.Time.Dates
import NameserverAudit.Time.Iso

/-!
Instants as text and back. The text of an instant has parts of fixed width, with six digits of a
second where there are any. Main statement: it reads back as the instant.
-/

namespace NameserverAudit.Iso

-----------------------------------------------------------------------------------------
-- Digits
-----------------------------------------------------------------------------------------

/-- A number in a field of fixed width. -/
def field (width n : Nat) : List Char :=
  (Instant.padded width n).toList

theorem field_eq (width n : Nat)
    : field width n
      = List.replicate (width - (Nat.toDigits 10 n).length) '0' ++ Nat.toDigits 10 n :=
  String.toList_ofList

theorem length_field {width n : Nat} (hw : 0 < width) (h : n < 10 ^ width)
    : (field width n).length = width := by
  have := (Nat.length_toDigits_le_iff (by decide) hw).2 h
  rw [field_eq, List.length_append, List.length_replicate]
  omega

theorem isDigit_of_mem_field {width n : Nat} {c : Char} (h : c ∈ field width n)
    : isDigit c = true := by
  rw [field_eq, List.mem_append] at h
  rcases h with h | h
  · rw [List.eq_of_mem_replicate h]
    decide
  · exact Nat.isDigit_of_mem_toDigits (by decide) (by decide) h

theorem ofDigits_field (width n : Nat) : ofDigits (field width n) = n := by
  have : Nat.ofDigitChars 10 (field width n) 0 = n := by
    rw [field_eq, Nat.ofDigitChars_append, Nat.ofDigitChars_replicate_zero, Nat.mul_zero,
      Nat.ofDigitChars_ten_toDigits]
  exact this

/-- A field reads back with whatever comes after it. -/
theorem digits?_field {width n : Nat} (hw : 0 < width) (h : n < 10 ^ width) (rest : List Char)
    : digits? width (field width n ++ rest) = some (n, rest) := by
  have length := length_field hw h
  have front : (field width n ++ rest).take width = field width n := List.take_left' length
  have back : (field width n ++ rest).drop width = rest := List.drop_left' length
  have all : (field width n).all isDigit = true :=
    List.all_eq_true.2 fun c hc => isDigit_of_mem_field hc
  simp only [digits?, front, back, length, all, decide_true, Bool.and_self, if_true,
    ofDigits_field]

/-- A field begins with a digit. -/
theorem field_eq_cons {width n : Nat} (hw : 0 < width) (h : n < 10 ^ width)
    : ∃ c more, field width n = c :: more ∧ isDigit c = true := by
  cases heq : field width n with
  | nil =>
      have := length_field hw h
      rw [heq, List.length_nil] at this
      omega
  | cons c more =>
      exact ⟨c, more, rfl, isDigit_of_mem_field (heq ▸ List.mem_cons_self ..)⟩

-----------------------------------------------------------------------------------------
-- Parts of the text
-----------------------------------------------------------------------------------------

def dateChars (d : Calendar.Date) : List Char :=
  field 4 d.year ++ '-' :: (field 2 d.month ++ '-' :: field 2 d.day)

/-- Microseconds, if there are any. -/
def fractionChars (microsecond : Nat) : List Char :=
  if microsecond = 0 then [] else '.' :: field 6 microsecond

def clockChars (c : Clock) : List Char :=
  field 2 c.hour ++ ':' :: (field 2 c.minute ++ ':' :: (field 2 c.second
    ++ fractionChars c.microsecond))

theorem date?_dateChars {d : Calendar.Date} (valid : d.Valid) : date? (dateChars d) = some d := by
  have year : d.year < 10 ^ 4 := Nat.lt_of_le_of_lt valid.year_le (by decide)
  have month : d.month < 10 ^ 2 := Nat.lt_of_le_of_lt valid.month_le (by decide)
  have day : d.day < 10 ^ 2 := by
    have := valid.day_le
    have := Calendar.monthLength_le d.year d.month
    omega
  have last := digits?_field (by decide) day []
  rw [List.append_nil] at last
  obtain ⟨c, more, hmonth, digit⟩ := field_eq_cons (by decide) month
  have week : c ≠ 'W' := by
    rintro rfl
    cases digit
  have month_read := digits?_field (by decide) month ('-' :: field 2 d.day)
  simp only [date?, dateChars, digits?_field (by decide) year, Option.bind_eq_bind,
    Option.bind_some, List.head?_cons, decide_true, if_true, List.drop_succ_cons, List.drop_zero]
  rw [hmonth, List.cons_append] at month_read ⊢
  simp [week, month_read, last]

theorem fraction?_field (more : Bool) {c : Clock} (valid : c.Valid)
    : fraction? more ⟨c.hour, c.minute, c.second, 0⟩ (field 6 c.microsecond)
      = some (c, more) := by
  have six : (field 6 c.microsecond).length = 6 := length_field (by decide) valid.microsecond
  have read := digits?_field (by decide) (show c.microsecond < 10 ^ 6 from valid.microsecond) []
  rw [List.append_nil] at read
  simp [fraction?, six, read]

theorem clock?_clockChars (more : Bool) {c : Clock} (valid : c.Valid)
    : clock? more (clockChars c) = some (c, more) := by
  have hour : c.hour < 10 ^ 2 := Nat.lt_of_le_of_lt valid.hour (by decide)
  have minute : c.minute < 10 ^ 2 := Nat.lt_of_le_of_lt valid.minute (by decide)
  have second : c.second < 10 ^ 2 := Nat.lt_of_le_of_lt valid.second (by decide)
  have hour_read := digits?_field (by decide) hour (':' :: (field 2 c.minute
    ++ ':' :: (field 2 c.second ++ fractionChars c.microsecond)))
  have minute_read := digits?_field (by decide) minute
    (':' :: (field 2 c.second ++ fractionChars c.microsecond))
  have second_read := digits?_field (by decide) second (fractionChars c.microsecond)
  obtain ⟨x, xs, hminute, -⟩ := field_eq_cons (by decide) minute
  obtain ⟨y, ys, hsecond, -⟩ := field_eq_cons (by decide) second
  simp only [clock?, clockChars, hour_read, Option.bind_eq_bind, Option.bind_some]
  rw [hminute, List.cons_append] at minute_read ⊢
  simp only [isPoint, decide_true, if_true, minute_read, Option.bind_some]
  rw [hsecond, List.cons_append] at second_read ⊢
  simp only [second_read, Option.bind_some, Bool.true_and]
  by_cases zero : c.microsecond = 0
  · have whole : (⟨c.hour, c.minute, c.second, 0⟩ : Clock) = c := by rw [← zero]
    simp [fractionChars, zero, whole]
  · obtain ⟨z, zs, hfraction, -⟩ := field_eq_cons (by decide)
      (show c.microsecond < 10 ^ 6 from valid.microsecond)
    have read := fraction?_field more valid
    rw [hfraction] at read
    simp [fractionChars, zero, hfraction, read]

/-- The offset of universal time is zero. -/
theorem time?_clockChars {c : Clock} (valid : c.Valid)
    : time? (clockChars c ++ "+00:00".toList) = some (c, some 0) := by
  have inside : ∀ x ∈ clockChars c, (!(x = '+' || x = '-' || x = 'Z')) = true := by
    intro x hx
    have shown : isDigit x = true ∨ x = ':' ∨ x = '.' := by
      simp only [clockChars, fractionChars, List.mem_append, List.mem_cons] at hx
      rcases hx with h | rfl | h | rfl | h | h
      · exact .inl (isDigit_of_mem_field h)
      · exact .inr (.inl rfl)
      · exact .inl (isDigit_of_mem_field h)
      · exact .inr (.inl rfl)
      · exact .inl (isDigit_of_mem_field h)
      · split at h
        · cases h
        · rcases List.mem_cons.1 h with rfl | h
          · exact .inr (.inr rfl)
          · exact .inl (isDigit_of_mem_field h)
    have other {y : Char} (hy : ¬(isDigit y = true ∨ y = ':' ∨ y = '.')) : x ≠ y := by
      rintro rfl
      exact hy shown
    simp [other (y := '+') (by decide), other (y := '-') (by decide),
      other (y := 'Z') (by decide)]
  have offset : "+00:00".toList = '+' :: ['0', '0', ':', '0', '0'] := rfl
  have body : (clockChars c ++ '+' :: ['0', '0', ':', '0', '0']).takeWhile
      (fun x => !(x = '+' || x = '-' || x = 'Z')) = clockChars c := by
    rw [List.takeWhile_append_of_pos inside]
    exact List.append_nil _
  have zone : clock? false ['0', '0', ':', '0', '0'] = some (⟨0, 0, 0, 0⟩, false) := by
    decide
  have utc : Clock.seconds ⟨0, 0, 0, 0⟩ = 0 := rfl
  rw [offset]
  simp only [time?, body, List.drop_left, clock?_clockChars true valid, zone, utc,
    Option.bind_eq_bind, Option.bind_some]
  simp

-----------------------------------------------------------------------------------------
-- The whole text
-----------------------------------------------------------------------------------------

/-- The time of day of an instant. -/
def clockOf (t : Instant) : Clock :=
  let micros := (t.microseconds % Instant.day).toNat
  ⟨micros / 1000000 / 3600, micros / 1000000 / 60 % 60, micros / 1000000 % 60, micros % 1000000⟩

def dateOf (t : Instant) : Calendar.Date :=
  Calendar.Date.ofDay (t.microseconds / Instant.day).toNat

theorem clockOf_valid (t : Instant) : (clockOf t).Valid := by
  have := Int.emod_lt_of_pos t.microseconds (show 0 < Instant.day by decide)
  have := Int.emod_nonneg t.microseconds (show Instant.day ≠ 0 by decide)
  have length : Instant.day = 86400000000 := rfl
  constructor <;> simp only [clockOf] <;> omega

theorem dateOf_valid (t : Instant) : (dateOf t).Valid := by
  refine Calendar.Date.ofDay_valid ?_
  obtain ⟨lo, hi⟩ := t.inRange
  have length : Instant.day = 86400000000 := rfl
  have limit : Instant.limit = 3652059 * 86400000000 := rfl
  rw [Calendar.days, length]
  omega

/-- The parts make up the instant. -/
theorem microsecondsOf_parts (t : Instant)
    : (microsecondsOf (dateOf t) (clockOf t) : Int) = t.microseconds := by
  have day : (dateOf t).toDay = (t.microseconds / Instant.day).toNat :=
    Calendar.Date.toDay_ofDay _
  have length : Instant.day = 86400000000 := rfl
  have lo := t.inRange.1
  simp only [microsecondsOf, day, Clock.seconds, clockOf, length]
  omega

theorem wall_parts (t : Instant) : wall (dateOf t) (clockOf t) = .ok t := by
  obtain ⟨year_pos, year_le, month_pos, month_le, day_pos, day_le⟩ := dateOf_valid t
  have clock := clockOf_valid t
  unfold wall
  rw [dif_neg (by omega), dif_neg (by omega), dif_neg (by omega),
    dif_neg (Nat.not_lt.2 clock.hour), dif_neg (Nat.not_lt.2 clock.minute),
    dif_neg (Nat.not_lt.2 clock.second),
    dif_neg (Nat.not_lt.2 (Nat.le_of_lt_succ clock.microsecond))]
  exact congrArg Except.ok (Instant.ext (microsecondsOf_parts t))

theorem assemble_parts (t : Instant)
    : assemble (dateOf t) (clockOf t) (some 0) = .ok (.utc t) := by
  simp only [assemble, Option.getD_some]
  rw [if_neg (by decide), wall_parts]
  rfl

theorem toList_text (t : Instant)
    : t.text.toList
      = dateChars (dateOf t) ++ 'T' :: (clockChars (clockOf t) ++ "+00:00".toList) := by
  have fraction (n : Nat) : (if n = 0 then "" else "." ++ Instant.padded 6 n).toList
      = fractionChars n := by
    simp only [fractionChars]
    split
    · rfl
    · rw [String.toList_append]
      rfl
  simp only [Instant.text, String.toList_append, fraction]
  simp [dateChars, clockChars, dateOf, clockOf, field]

/-- A calendar date with dashes has ten characters, and the time comes after the next one. -/
theorem parts?_chars {d : Calendar.Date} {c : Clock} (date : d.Valid) (clock : c.Valid)
    : parts? (dateChars d ++ 'T' :: (clockChars c ++ "+00:00".toList)) = some (d, c, some 0) := by
  have year : (field 4 d.year).length = 4 :=
    length_field (by decide) (Nat.lt_of_le_of_lt date.year_le (by decide))
  have month_lt : d.month < 10 ^ 2 := Nat.lt_of_le_of_lt date.month_le (by decide)
  have month : (field 2 d.month).length = 2 := length_field (by decide) month_lt
  have day : (field 2 d.day).length = 2 := by
    refine length_field (by decide) ?_
    have := date.day_le
    have := Calendar.monthLength_le d.year d.month
    omega
  have ten : (dateChars d).length = 10 := by
    simp [dateChars, year, month, day]
  obtain ⟨x, xs, hmonth, digit⟩ := field_eq_cons (by decide) month_lt
  have week : x ≠ 'W' := by
    rintro rfl
    cases digit
  generalize htail : 'T' :: (clockChars c ++ "+00:00".toList) = tail
  have dash : (dateChars d ++ tail)[4]? = some '-' := by
    simp [dateChars, year]
  have digit : (dateChars d ++ tail)[5]? = some x := by
    rw [dateChars, List.append_assoc, List.getElem?_append_right (by omega), year, hmonth]
    rfl
  have length : (dateChars d ++ tail).length = 10 + tail.length := by
    rw [List.length_append, ten]
  have place : separatorPlace? (dateChars d ++ tail) = some 10 := by
    rw [separatorPlace?, if_neg (by omega), dash, if_pos rfl, digit,
      if_neg (fun e => week (Option.some.inj e))]
  have front : (dateChars d ++ tail).take 10 = dateChars d := List.take_left' ten
  have back : (dateChars d ++ tail).drop 10 = tail := List.drop_left' ten
  simp only [parts?, place, front, back, if_neg (show ¬(dateChars d ++ tail).length < 7 by omega),
    date?_dateChars date, Option.bind_eq_bind, Option.bind_some]
  rw [← htail]
  simp only [time?_clockChars clock, Option.bind_some]
  rfl

/-- The text of an instant reads back as what a clock of universal time shows then. -/
theorem parse_text (t : Instant) : parse t.text = .ok (.utc t) := by
  have zone : (dateChars (dateOf t) ++ 'T' :: (clockChars (clockOf t) ++ "+00:00".toList)).getLast?
      ≠ some 'Z' := by
    have last : "+00:00".toList.getLast? = some '0' := rfl
    rw [← List.cons_append, ← List.append_assoc, List.getLast?_append, last]
    simp
  simp only [parse, toList_text, if_neg zone, parts?_chars (dateOf_valid t) (clockOf_valid t),
    assemble_parts t]

end NameserverAudit.Iso
