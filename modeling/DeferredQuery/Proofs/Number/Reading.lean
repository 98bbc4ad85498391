import DeferredQuery.Number.Digits
import DeferredQuery.Number.Hex
import DeferredQuery.Number.Power
import DeferredQuery.Proofs.Text.Runs
import Mathlib.Data.List.TakeDrop
import Mathlib.Tactic.Ring

/-!
# Numbers read back from their digits

Digits are written highest first, with zeros before them where a width is asked for, and without a
leading zero where none is. Reading them gives the number back; of hexadecimal digits that are too
few it gives what they hold.
-/

set_option autoImplicit false

namespace DeferredQuery.Number

open Text

/-! ## Decimal digits -/

theorem isDigit_of_mem_digits {n : Nat} {c : Char} (h : c ∈ digits n) : c.isDigit = true :=
  Nat.isDigit_of_mem_toDigits (by decide) (by decide) h

theorem ne_of_isDigit {c d : Char} (hc : c.isDigit = true) (hd : d.isDigit = false) : c ≠ d := by
  rintro rfl
  rw [hd] at hc
  cases hc

theorem exists_cons_of_digits {ds : List Char} (hds : ∀ c ∈ ds, c.isDigit = true) (hne : ds ≠ []) :
    ∃ c rest, ds = c :: rest ∧ c.isDigit = true := by
  obtain ⟨c, rest, rfl⟩ := List.exists_cons_of_ne_nil hne
  exact ⟨c, rest, rfl, hds c List.mem_cons_self⟩

theorem exists_digits_eq_cons (n : Nat) : ∃ c rest, digits n = c :: rest ∧ c.isDigit = true :=
  exists_cons_of_digits (fun _ => isDigit_of_mem_digits) Nat.toDigits_ne_nil

/-- Only zero is written with a zero first. -/
theorem digits_head (n : Nat) : n = 0 ∨ ∃ c rest, digits n = c :: rest ∧ c ≠ '0' := by
  induction n using Nat.strongRecOn with
  | ind n ih =>
    by_cases hzero : n = 0
    · exact .inl hzero
    right
    by_cases hsmall : n < 10
    · refine ⟨n.digitChar, [], Nat.toDigits_of_lt_base hsmall, ?_⟩
      simpa using hzero
    · obtain hdiv | ⟨c, rest, hdigits, hc⟩ := ih (n / 10) (by omega)
      · omega
      · refine ⟨c, rest ++ [(n % 10).digitChar], ?_, hc⟩
        rw [digits] at hdigits
        rw [digits, Nat.toDigits_eq_if (by decide), if_neg hsmall, hdigits]
        rfl

theorem isDigit_of_mem_paddedDigits {width n : Nat} {c : Char} (h : c ∈ paddedDigits width n) :
    c.isDigit = true := by
  rcases List.mem_append.mp h with hzero | hdigit
  · rw [List.eq_of_mem_replicate hzero]
    rfl
  · exact isDigit_of_mem_digits hdigit

theorem paddedDigits_ne_nil (width n : Nat) : paddedDigits width n ≠ [] :=
  List.append_ne_nil_of_right_ne_nil _ Nat.toDigits_ne_nil

theorem exists_paddedDigits_eq_cons (width n : Nat) :
    ∃ c rest, paddedDigits width n = c :: rest ∧ c.isDigit = true :=
  exists_cons_of_digits (fun _ => isDigit_of_mem_paddedDigits) (paddedDigits_ne_nil width n)

theorem length_paddedDigits {width n : Nat} (hwidth : 0 < width) (h : n < 10 ^ width) :
    (paddedDigits width n).length = width := by
  have hle : (digits n).length ≤ width := (Nat.length_toDigits_le_iff (by decide) hwidth).mpr h
  simp [paddedDigits]
  omega

/-- Zeros before the digits do not count. -/
@[simp] theorem value_paddedDigits (width n : Nat) : value (paddedDigits width n) = n := by
  rw [value, valueFrom, paddedDigits, Nat.ofDigitChars_append, Nat.ofDigitChars_replicate_zero,
    Nat.mul_zero]
  exact value_digits n

/-- Digits are taken to their end. -/
theorem spanDigits_append {ds s : List Char} (hds : ∀ c ∈ ds, c.isDigit = true)
    (hs : Stops Char.isDigit s) : spanDigits (ds ++ s) = (ds, s) := by
  rw [spanDigits, List.span_eq_takeWhile_dropWhile, takeWhile_run hds hs, dropWhile_run hds hs]

/-! ## Hexadecimal digits -/

theorem hexValue?_digitChar {d : Nat} (h : d < 16) : hexValue? d.digitChar = some d := by
  have hall : ∀ d < 16, hexValue? (Nat.digitChar d) = some d := by decide
  exact hall d h

theorem hexFrom?_append (start : Nat) (s t : List Char) :
    hexFrom? start (s ++ t) = (hexFrom? start s).bind (hexFrom? · t) := by
  induction s generalizing start with
  | nil => rfl
  | cons c s ih =>
    simp only [List.cons_append, hexFrom?]
    cases hexValue? c with
    | none => rfl
    | some digit => exact ih _

/-- Hexadecimal digits spell what is left of a number in so many digits. -/
theorem hexFrom?_hexDigits (count n : Nat) :
    hexFrom? 0 (hexDigits count n) = some (n % 16 ^ count) := by
  induction count generalizing n with
  | zero => simp [hexDigits, hexFrom?, Nat.mod_one]
  | succ count ih =>
    have hdigit : hexValue? (n % 16).digitChar = some (n % 16) :=
      hexValue?_digitChar (Nat.mod_lt n (by decide))
    rw [hexDigits, hexFrom?_append, ih, Option.bind_some, hexFrom?, hdigit]
    simp only [Option.bind_some, hexFrom?, Option.some.injEq]
    rw [pow_succ', Nat.mod_mul]
    ring

theorem hexValue?_of_mem_hexDigits {count n : Nat} {c : Char} (h : c ∈ hexDigits count n) :
    (hexValue? c).isSome = true := by
  induction count generalizing n with
  | zero => cases h
  | succ count ih =>
    rw [hexDigits, List.mem_append, List.mem_singleton] at h
    rcases h with h | rfl
    · exact ih h
    · rw [hexValue?_digitChar (Nat.mod_lt n (by decide))]
      rfl

end DeferredQuery.Number
