import DeferredQuery.Instant
import DeferredQuery.Proofs.Instant.Calendar
import DeferredQuery.Proofs.Number.Reading

/-!
# Instants read back

An instant is read from its exact text. Every field but the year is written in two digits, so the
reader cannot take too many or too few; a year has four digits, or a sign, and then its digits go on
up to the hyphen. A leap second behind the last second of a minute is written as second 60 and read
into the nanoseconds again; behind any other second it is written as the next second, and that is what
is read.
-/

set_option autoImplicit false

namespace DeferredQuery.Instant

open Number Text

/-! ## Fields -/

theorem isBlank_of_isDigit {c : Char} (h : c.isDigit = true) : isBlank c = false := by
  have hzero : '0'.toNat = 48 := rfl
  have hnine : '9'.toNat = 57 := rfl
  rw [Char.isDigit_iff_toNat] at h
  exact isBlank_of_visible (by omega)

theorem dropBlanks_cons {c : Char} (h : isBlank c = false) (s : List Char) :
    dropBlanks (c :: s) = c :: s := by
  simp [dropBlanks, h]

/-- A number is read to its last digit, if it has as many as it may have or none follows. -/
theorem readNumber?_append {width : Nat} {ds s : List Char} (hds : ∀ c ∈ ds, c.isDigit = true)
    (hne : ds ≠ []) (hwidth : ds.length ≤ width)
    (hs : ds.length = width ∨ Stops Char.isDigit s) :
    readNumber? width (ds ++ s) = some (value ds, s) := by
  have hstops : Stops Char.isDigit (s.take (width - ds.length)) := by
    intro c rest hrest
    rcases hs with hfull | hs
    · rw [hfull, Nat.sub_self, List.take_zero] at hrest
      cases hrest
    · cases s with
      | nil => simp at hrest
      | cons d s =>
        obtain ⟨k, hk⟩ : ∃ k, width - ds.length = k + 1 := by
          cases hsub : width - ds.length with
          | zero => simp [hsub] at hrest
          | succ k => exact ⟨k, rfl⟩
        rw [hk, List.take_succ_cons] at hrest
        cases hrest
        exact hs _ _ rfl
  have hrun : ((ds ++ s).take width).takeWhile Char.isDigit = ds := by
    rw [List.take_append, List.take_of_length_le hwidth, takeWhile_run hds hstops]
  simp [readNumber?, hrun, hne]

theorem readNumber?_paddedDigits {width places n : Nat} {s : List Char}
    (hwidth : (paddedDigits places n).length ≤ width)
    (hs : (paddedDigits places n).length = width ∨ Stops Char.isDigit s) :
    readNumber? width (paddedDigits places n ++ s) = some (n, s) := by
  have hread := readNumber?_append (fun _ => isDigit_of_mem_paddedDigits)
    (paddedDigits_ne_nil places n) hwidth hs
  rwa [value_paddedDigits] at hread

theorem readField?_paddedDigits {n : Nat} (h : n < 100) (s : List Char) :
    readField? (paddedDigits 2 n ++ s) = some (n, s) := by
  have hlength : (paddedDigits 2 n).length = 2 := length_paddedDigits (by decide) h
  have hread := @readNumber?_paddedDigits 2 2 n s (Nat.le_of_eq hlength) (.inl hlength)
  obtain ⟨c, rest, heq, hc⟩ := exists_paddedDigits_eq_cons 2 n
  rw [heq, List.cons_append] at hread ⊢
  rw [readField?, dropBlanks_cons (isBlank_of_isDigit hc), hread]

theorem readMark?_cons {mark : Char} (h : isBlank mark = false) (s : List Char) :
    readMark? mark (mark :: s) = some s := by
  simp [readMark?, dropBlanks_cons h]

/-! ## Years -/

theorem readYear?_yearText (year : Int) (s : List Char) :
    readYear? (yearText year ++ '-' :: s) = some (year, '-' :: s) := by
  rw [yearText]
  split
  next hyear =>
    have hlength : (paddedDigits 4 year.toNat).length = 4 :=
      length_paddedDigits (by decide) (by omega)
    have hread := @readNumber?_paddedDigits 4 4 _ ('-' :: s) (Nat.le_of_eq hlength) (.inl hlength)
    obtain ⟨c, rest, heq, hc⟩ := exists_paddedDigits_eq_cons 4 year.toNat
    have hminus : c ≠ '-' := ne_of_isDigit hc rfl
    have hplus : c ≠ '+' := ne_of_isDigit hc rfl
    have hvalue : (year.toNat : Int) = year := Int.toNat_of_nonneg hyear.1
    rw [heq, List.cons_append] at hread ⊢
    simp [readYear?, dropBlanks_cons (isBlank_of_isDigit hc), hminus, hplus, hread, hvalue]
  next hyear =>
    -- behind a sign the digits go on up to the hyphen
    have hread := @readNumber?_paddedDigits (paddedDigits 4 year.natAbs ++ '-' :: s).length 4
      year.natAbs ('-' :: s) (by simp) (.inr (stops_cons rfl))
    by_cases hnegative : year < 0
    · have hvalue : -(year.natAbs : Int) = year := by omega
      rw [if_pos hnegative, List.cons_append, readYear?, dropBlanks_cons rfl]
      simp only [hread, Option.map_some, hvalue]
    · have hvalue : (year.natAbs : Int) = year := by omega
      rw [if_neg hnegative, List.cons_append, readYear?, dropBlanks_cons rfl]
      simp only [hread, Option.map_some, hvalue]

/-! ## Fractions of a second -/

/-- Digits that are fewer than nine stand for so many nanoseconds more. -/
theorem readFraction?_paddedDigits {places n : Nat} (hpos : 0 < places) (hle : places ≤ 9)
    (h : n < 10 ^ places) :
    readFraction? ('.' :: paddedDigits places n ++ ['Z']) =
      some (n * tenPow (9 - places), ['Z']) := by
  have hlength : (paddedDigits places n).length = places := length_paddedDigits hpos h
  have hread := @readNumber?_paddedDigits 9 places n ['Z'] (by omega) (.inr (stops_cons rfl))
  simp [readFraction?, hread, hlength]

theorem readFraction?_fractionText {nanos : Nat} (h : nanos < 1000000000) :
    readFraction? (fractionText nanos ++ ['Z']) = some (nanos, ['Z']) := by
  rw [fractionText]
  split
  next hzero =>
    rw [hzero]
    rfl
  next =>
    split
    next hmilli =>
      rw [readFraction?_paddedDigits (by decide) (by decide) (by omega)]
      have hvalue : nanos / 1000000 * tenPow (9 - 3) = nanos :=
        Nat.div_mul_cancel (Nat.dvd_of_mod_eq_zero hmilli)
      rw [hvalue]
    next =>
      split
      next hmicro =>
        rw [readFraction?_paddedDigits (by decide) (by decide) (by omega)]
        have hvalue : nanos / 1000 * tenPow (9 - 6) = nanos :=
          Nat.div_mul_cancel (Nat.dvd_of_mod_eq_zero hmicro)
        rw [hvalue]
      next =>
        rw [readFraction?_paddedDigits (by decide) (by decide) h]
        rw [Nat.sub_self, tenPow_zero, Nat.mul_one]

/-! ## Leap seconds -/

/-- A leap second, if there is one, stands behind the last second of a minute. -/
def LeapEndsMinute (i : Instant) : Prop := 1000000000 ≤ i.nanos → i.seconds % 60 = 59

instance (i : Instant) : Decidable i.LeapEndsMinute := by
  unfold LeapEndsMinute; infer_instance

/-- A leap second within a minute can be taken for the second that follows it. -/
theorem isValid_next {i : Instant} (h : ¬ i.LeapEndsMinute) :
    IsValid (i.seconds + 1) (i.nanos - 1000000000) := by
  obtain ⟨hmin, hmax, hnanos⟩ := i.isValid
  have hlast : maxSeconds % 60 = 59 := by decide
  rw [LeapEndsMinute] at h
  exact ⟨by omega, by omega, by omega⟩

/-- The instant that the text of an instant stands for: the same one, unless it is a leap second
within a minute. -/
def asRead (i : Instant) : Instant :=
  if h : i.LeapEndsMinute then i else ⟨i.seconds + 1, i.nanos - 1000000000, isValid_next h⟩

theorem asRead_eq_iff {i : Instant} : i.asRead = i ↔ i.LeapEndsMinute := by
  constructor
  · intro heq
    by_contra h
    rw [asRead, dif_neg h] at heq
    have hseconds := congrArg seconds heq
    simp only at hseconds
    omega
  · intro h
    rw [asRead, dif_pos h]

/-! ## From the fields -/

theorem yearsOf (i : Instant) : Date.minYear ≤ (Date.ofDays (i.seconds / 86400)).year ∧
    (Date.ofDays (i.seconds / 86400)).year ≤ Date.maxYear := by
  obtain ⟨hmin, hmax, -⟩ := i.isValid
  rw [minSeconds] at hmin
  rw [maxSeconds] at hmax
  exact ⟨Date.le_year_ofDays (by omega), Date.year_ofDays_le (by omega)⟩

theorem make?_eq_some {i : Instant} {seconds : Int} {nanos : Nat} (hseconds : seconds = i.seconds)
    (hnanos : nanos = i.nanos) : make? seconds nanos = some i := by
  subst hseconds hnanos
  exact dif_pos i.isValid

/-- The fields that an instant is written with are those of the instant that they stand for. -/
theorem ofFields?_fields (i : Instant) {secondOfDay : Nat}
    (hday : (secondOfDay : Int) = i.seconds % 86400) :
    ofFields? (Date.ofDays (i.seconds / 86400)) (secondOfDay / 3600) (secondOfDay / 60 % 60)
      (secondOfDay % 60 + i.nanos / 1000000000) (i.nanos % 1000000000) 0 = some i.asRead := by
  obtain ⟨hminYear, hmaxYear⟩ := i.yearsOf
  have hnanos := i.isValid.2.2
  have hguard : (Date.ofDays (i.seconds / 86400)).isValid ∧
      Date.minYear ≤ (Date.ofDays (i.seconds / 86400)).year ∧
      (Date.ofDays (i.seconds / 86400)).year ≤ Date.maxYear ∧ secondOfDay / 3600 < 24 ∧
      secondOfDay / 60 % 60 < 60 ∧ secondOfDay % 60 + i.nanos / 1000000000 ≤ 60 ∧
      (0 : Int).natAbs < 86400 :=
    ⟨Date.isValid_ofDays _, hminYear, hmaxYear, by omega, Nat.mod_lt _ (by decide), by omega,
      by decide⟩
  rw [ofFields?, if_pos hguard, Date.toDays_ofDays]
  by_cases hsecond : secondOfDay % 60 + i.nanos / 1000000000 = 60
  · -- second 60 is a leap second behind the last second of its minute
    have hleap : i.LeapEndsMinute := fun _ => by omega
    rw [if_pos hsecond, asRead, dif_pos hleap]
    exact make?_eq_some (by omega) (by omega)
  · rw [if_neg hsecond, asRead]
    split
    next hleap =>
      have hplain : i.nanos < 1000000000 := by
        by_contra hnot
        have hlast := hleap (Nat.le_of_not_lt hnot)
        omega
      exact make?_eq_some (by omega) (by omega)
    next hleap =>
      have hlate : 1000000000 ≤ i.nanos := (Classical.not_imp.mp hleap).1
      exact make?_eq_some (by simp only; omega) (by simp only; omega)

/-- A text of fields is read field by field. -/
theorem read?_fieldsText {year : Int} {month day hour minute second nanos : Nat}
    {fraction : List Char} {i : Instant} (hmonth : month < 100) (hday : day < 100)
    (hhour : hour < 100) (hminute : minute < 100) (hsecond : second < 100)
    (hfraction : readFraction? (fraction ++ ['Z']) = some (nanos, ['Z']))
    (h : ofFields? ⟨year, month, day⟩ hour minute second nanos 0 = some i) :
    read? (yearText year ++ '-' :: (paddedDigits 2 month ++ '-' :: (paddedDigits 2 day ++
      'T' :: (paddedDigits 2 hour ++ ':' :: (paddedDigits 2 minute ++
        ':' :: (paddedDigits 2 second ++ (fraction ++ ['Z']))))))) = some i := by
  have hhyphen : ∀ s, readMark? '-' ('-' :: s) = some s := readMark?_cons (by decide)
  have hcolon : ∀ s, readMark? ':' (':' :: s) = some s := readMark?_cons (by decide)
  refine Option.bind_eq_some_iff.mpr ⟨_, readYear?_yearText year _, ?_⟩
  refine Option.bind_eq_some_iff.mpr ⟨_, hhyphen _, ?_⟩
  refine Option.bind_eq_some_iff.mpr ⟨_, readField?_paddedDigits hmonth _, ?_⟩
  refine Option.bind_eq_some_iff.mpr ⟨_, hhyphen _, ?_⟩
  refine Option.bind_eq_some_iff.mpr ⟨_, readField?_paddedDigits hday _, ?_⟩
  refine Option.bind_eq_some_iff.mpr ⟨_, rfl, ?_⟩
  refine Option.bind_eq_some_iff.mpr ⟨_, readField?_paddedDigits hhour _, ?_⟩
  refine Option.bind_eq_some_iff.mpr ⟨_, hcolon _, ?_⟩
  refine Option.bind_eq_some_iff.mpr ⟨_, readField?_paddedDigits hminute _, ?_⟩
  refine Option.bind_eq_some_iff.mpr ⟨_, hcolon _, ?_⟩
  refine Option.bind_eq_some_iff.mpr ⟨_, readField?_paddedDigits hsecond _, ?_⟩
  refine Option.bind_eq_some_iff.mpr ⟨_, hfraction, ?_⟩
  refine Option.bind_eq_some_iff.mpr ⟨(0, []), rfl, ?_⟩
  exact h

/-- **What is read of the exact text of an instant** is the instant that it stands for. -/
theorem read?_exactText (i : Instant) : read? i.exactText = some i.asRead := by
  obtain ⟨-, hmonth, -, hday⟩ := Date.isValid_iff.mp (Date.isValid_ofDays (i.seconds / 86400))
  have hlength := Date.daysInMonth_le (Date.ofDays (i.seconds / 86400)).year
    (Date.ofDays (i.seconds / 86400)).month
  have hnanos := i.isValid.2.2
  have hfields := @ofFields?_fields i (i.seconds % 86400).toNat (by omega)
  rw [exactText, secondsText]
  simp only [List.append_assoc, List.cons_append]
  exact read?_fieldsText (by omega) (by omega) (by omega) (by omega) (by omega)
    (readFraction?_fractionText (Nat.mod_lt _ (by decide))) hfields

end DeferredQuery.Instant
