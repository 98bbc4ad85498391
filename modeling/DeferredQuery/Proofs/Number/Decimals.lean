import DeferredQuery.Number.Scaled.Reader
import DeferredQuery.Proofs.Number.Reading

/-!
# Scaled decimals read back

A decimal is read from its text digit by digit. None of the magnitudes on the way exceeds the last,
and there are never more places than the decimal has, so neither limit of the reader is hit and
nothing is rounded. Only the sign of a negative zero is lost.
-/

set_option autoImplicit false

namespace DeferredQuery.Number

theorem valueFrom_cons (start : Nat) (c : Char) (ds : List Char) :
    valueFrom start (c :: ds) = valueFrom (10 * start + digitValue c) ds :=
  Nat.ofDigitChars_cons

theorem valueFrom_append (start : Nat) (s t : List Char) :
    valueFrom start (s ++ t) = valueFrom (valueFrom start s) t :=
  Nat.ofDigitChars_append start

/-- Digits that follow make a number no less. -/
theorem le_valueFrom (start : Nat) (ds : List Char) : start ≤ valueFrom start ds := by
  induction ds generalizing start with
  | nil => exact Nat.le_refl start
  | cons c ds ih =>
    rw [valueFrom_cons]
    have hrest := ih (10 * start + digitValue c)
    omega

/-- A text with a point has the digits it was made of around the point, and a whole part. -/
theorem exists_withPoint {places : Nat} {ds : List Char} (hplaces : places ≠ 0)
    (hds : ∀ c ∈ ds, c.isDigit = true) :
    ∃ whole fraction, withPoint places ds = whole ++ '.' :: fraction ∧ whole ≠ [] ∧
      fraction.length = places ∧ (∀ c ∈ whole ++ fraction, c.isDigit = true) ∧
      value (whole ++ fraction) = value ds := by
  let padded := List.replicate (places + 1 - ds.length) '0' ++ ds
  have hlength : places + 1 ≤ padded.length := by
    simp only [padded, List.length_append, List.length_replicate]
    omega
  refine ⟨padded.take (padded.length - places), padded.drop (padded.length - places), ?_, ?_, ?_,
    ?_, ?_⟩
  · rw [withPoint, if_neg hplaces]
  · rw [ne_eq, List.take_eq_nil_iff, not_or]
    exact ⟨by omega, List.ne_nil_of_length_pos (by omega)⟩
  · rw [List.length_drop]
    omega
  · rw [List.take_append_drop]
    intro c hc
    rcases List.mem_append.mp hc with hc | hc
    · rw [List.eq_of_mem_replicate hc]
      rfl
    · exact hds c hc
  · rw [List.take_append_drop, value, valueFrom_append]
    have hzeros : valueFrom 0 (List.replicate (places + 1 - ds.length) '0') = 0 := by
      rw [valueFrom, Nat.ofDigitChars_replicate_zero, Nat.mul_zero]
    rw [hzeros, value]

theorem exists_withPoint_eq_cons (places : Nat) {ds : List Char}
    (hds : ∀ c ∈ ds, c.isDigit = true) (hne : ds ≠ []) :
    ∃ c rest, withPoint places ds = c :: rest ∧ c.isDigit = true := by
  by_cases hplaces : places = 0
  · rw [withPoint, if_pos hplaces]
    exact exists_cons_of_digits hds hne
  · obtain ⟨whole, fraction, htext, hwhole, -, hdigits, -⟩ := exists_withPoint hplaces hds
    obtain ⟨c, rest, rfl⟩ := List.exists_cons_of_ne_nil hwhole
    exact ⟨c, _, htext, hdigits c (by simp)⟩

namespace Scaled

/-- Digits are taken one by one as long as they fit. -/
theorem readUnsigned?_append (negative started : Bool) {fraction : Bool} {magnitude places : Nat}
    {ds : List Char} (s : List Char) (hds : ∀ c ∈ ds, c.isDigit = true)
    (hlt : valueFrom magnitude ds < magnitudeLimit) (hwhole : fraction = false → places = 0)
    (hfraction : fraction = true → places + ds.length ≤ maxPlaces) :
    readUnsigned? negative started fraction magnitude places (ds ++ s) =
      readUnsigned? negative (started || !ds.isEmpty) fraction (valueFrom magnitude ds)
        (if fraction then places + ds.length else 0) s := by
  induction ds generalizing started magnitude places with
  | nil =>
    cases fraction with
    | false =>
      rw [hwhole rfl]
      simp [valueFrom, Nat.ofDigitChars_nil]
    | true => simp [valueFrom, Nat.ofDigitChars_nil]
  | cons c ds ih =>
    rw [List.forall_mem_cons] at hds
    rw [valueFrom_cons] at hlt ⊢
    have hnext : 10 * magnitude + digitValue c < magnitudeLimit :=
      Nat.lt_of_le_of_lt (le_valueFrom _ ds) hlt
    have hroom : ¬ (fraction && decide (maxPlaces ≤ places)) = true := by
      rw [Bool.and_eq_true, decide_eq_true_eq]
      rintro ⟨htrue, hfull⟩
      have hle := hfraction htrue
      rw [List.length_cons] at hle
      omega
    have hrest := @ih true _ (if fraction then places + 1 else 0) hds.2 hlt
      (fun hfalse => if_neg (by simp [hfalse]))
      (fun htrue => by
        have hle := hfraction htrue
        rw [List.length_cons] at hle
        rw [if_pos htrue]
        omega)
    rw [List.cons_append, readUnsigned?, if_neg hroom, if_pos hds.1]
    simp only [if_pos hnext, hrest]
    cases fraction with
    | false => simp
    | true => simp [Nat.add_assoc, Nat.add_comm 1]

/-- The decimal without the sign of a zero. -/
def dropZeroSign (d : Scaled) : Scaled := { d with negative := d.negative && d.magnitude != 0 }

theorem signed?_fields (d : Scaled) :
    signed? d.negative d.magnitude d.places = some d.dropZeroSign := by
  rw [signed?, make?, dif_pos ⟨d.magnitude_lt, d.places_le⟩]
  rfl

theorem readUnsigned?_withPoint (d : Scaled) :
    readUnsigned? d.negative false false 0 0 (withPoint d.places (digits d.magnitude)) =
      some d.dropZeroSign := by
  have hdigits : ∀ c ∈ digits d.magnitude, c.isDigit = true := fun c => isDigit_of_mem_digits
  have hne : digits d.magnitude ≠ [] := Nat.toDigits_ne_nil
  by_cases hplaces : d.places = 0
  · have hvalue : valueFrom 0 (digits d.magnitude) = d.magnitude := value_digits d.magnitude
    have hread := @readUnsigned?_append d.negative false false 0 0 _ [] hdigits
      (by rw [hvalue]; exact d.magnitude_lt) (fun _ => rfl)
      (fun hfraction => absurd hfraction Bool.false_ne_true)
    rw [List.append_nil, hvalue] at hread
    rw [withPoint, if_pos hplaces, hread, ← signed?_fields, hplaces]
    simp [readUnsigned?, hne]
  · obtain ⟨whole, fraction, htext, hwhole, hlength, hdigits, hvalue⟩ :=
      exists_withPoint hplaces hdigits
    rw [value, value_digits, valueFrom_append] at hvalue
    have hmagnitude := d.magnitude_lt
    have hread := @readUnsigned?_append d.negative false false 0 0 whole ('.' :: fraction)
      (fun c hc => hdigits c (List.mem_append_left _ hc))
      (by
        have hle := le_valueFrom (valueFrom 0 whole) fraction
        omega)
      (fun _ => rfl) (fun hfraction => absurd hfraction Bool.false_ne_true)
    have hpoint : ∀ magnitude, readUnsigned? d.negative true false magnitude 0 ('.' :: fraction) =
        readUnsigned? d.negative true true magnitude 0 fraction := fun _ => rfl
    have hread' := @readUnsigned?_append d.negative true true (valueFrom 0 whole) 0 fraction []
      (fun c hc => hdigits c (List.mem_append_right _ hc)) (by rw [hvalue]; exact hmagnitude)
      (fun _ => rfl)
      (fun _ => by rw [hlength, Nat.zero_add]; exact d.places_le)
    rw [List.append_nil, hvalue, hlength] at hread'
    rw [htext]
    calc readUnsigned? d.negative false false 0 0 (whole ++ '.' :: fraction)
        = readUnsigned? d.negative true false (valueFrom 0 whole) 0 ('.' :: fraction) := by
          simpa [List.isEmpty_eq_false_iff.mpr hwhole] using hread
      _ = readUnsigned? d.negative true true (valueFrom 0 whole) 0 fraction := rfl
      _ = signed? d.negative d.magnitude d.places := by simpa [readUnsigned?] using hread'
      _ = some d.dropZeroSign := signed?_fields d

/-- What is written begins with a digit, or with a sign in front of one. -/
theorem readPlain?_toChars (d : Scaled) : readPlain? d.toChars = some d.dropZeroSign := by
  have hread := d.readUnsigned?_withPoint
  rw [toChars]
  cases hnegative : d.negative with
  | true =>
    rw [hnegative] at hread
    exact hread
  | false =>
    obtain ⟨c, rest, htext, hc⟩ := exists_withPoint_eq_cons d.places
      (fun c => @isDigit_of_mem_digits d.magnitude c) Nat.toDigits_ne_nil
    have hminus : c ≠ '-' := ne_of_isDigit hc rfl
    have hplus : c ≠ '+' := ne_of_isDigit hc rfl
    rw [hnegative, htext] at hread
    simp [htext, readPlain?, hminus, hplus, hread]

/-- **A decimal is read back from its text**, but for the sign of a zero. -/
theorem read?_toChars (d : Scaled) : read? d.toChars = some d.dropZeroSign := by
  rw [read?, readPlain?_toChars]
  rfl

theorem equal_dropZeroSign (d : Scaled) : d.equal d.dropZeroSign = true := by
  have hcoefficient : d.dropZeroSign.coefficient = d.coefficient := by
    by_cases hzero : d.magnitude = 0
    · simp [coefficient, dropZeroSign, hzero]
    · simp [coefficient, dropZeroSign, hzero]
  rw [equal, hcoefficient]
  exact beq_self_eq_true _

end Scaled

end DeferredQuery.Number
