import DeferredQuery.Operand.Document
import DeferredQuery.Proofs.Instant.Reading
import DeferredQuery.Proofs.Json.Records
import DeferredQuery.Proofs.Number.Decimals

/-!
# Operands written and loaded again

Every operand but a float has a JSON text, and an operand is read from it. Its document is made of
texts and integers, so the text is read as that document (`Json.Made.read?_write`); what remains is
one case for each sort of operand, what is read of that which it holds (`ofHeld?_heldJson?`).

The operand that is read is the one that was written but for two things that a text does not keep:
the sign of a zero, which makes no difference to equality, and the place of a leap second within a
minute, which does.
-/

set_option autoImplicit false

namespace DeferredQuery

open Number

/-! ## Identifiers -/

namespace Uuid

theorem ne_hyphen_of_mem_hexDigits {count n : Nat} {c : Char} (h : c ∈ hexDigits count n) :
    c ≠ '-' := by
  rintro rfl
  have hvalue := hexValue?_of_mem_hexDigits h
  cases hvalue

/-- Without the hyphens, the groups are the digits. -/
theorem filter_group {ds : List Char} (h : ∀ c ∈ ds, c ≠ '-') :
    (group ds).filter (· ≠ '-') = ds := by
  have hplain : ∀ {piece : List Char}, (∀ c ∈ piece, c ∈ ds) → piece.filter (· ≠ '-') = piece :=
    fun hmem => List.filter_eq_self.mpr fun c hc => decide_eq_true (h c (hmem c hc))
  have hgroup := fun start count =>
    @hplain ((ds.drop start).take count) fun c hc => List.mem_of_mem_drop (List.mem_of_mem_take hc)
  have hjoin : ∀ start count,
      (ds.drop start).take count ++ ds.drop (start + count) = ds.drop start :=
    fun start count => by rw [← List.drop_drop, List.take_append_drop]
  have hfirst := hgroup 0 8
  have hlast := @hplain (ds.drop 20) fun c hc => List.mem_of_mem_drop hc
  rw [List.drop_zero] at hfirst
  calc (group ds).filter (· ≠ '-')
      = ds.take 8 ++ ((ds.drop 8).take 4 ++ ((ds.drop 12).take 4 ++
          ((ds.drop 16).take 4 ++ ds.drop 20))) := by
        simp only [group, List.filter_append, List.filter_cons, hfirst, hgroup, hlast]
        simp
    _ = ds.take 8 ++ ((ds.drop 8).take 4 ++ ((ds.drop 12).take 4 ++ ds.drop 16)) := by
        rw [hjoin 16 4]
    _ = ds.take 8 ++ ((ds.drop 8).take 4 ++ ds.drop 12) := by rw [hjoin 12 4]
    _ = ds.take 8 ++ ds.drop 8 := by rw [hjoin 8 4]
    _ = ds := List.take_append_drop 8 ds

theorem length_group {ds : List Char} (h : ds.length = 32) : (group ds).length = 36 := by
  simp [group, h]

/-- **An identifier is read back from its groups.** -/
theorem read?_toChars (u : Uuid) : read? u.toChars = some u := by
  have hlength : (hexDigits 32 u.value.toNat).length = 32 := length_hexDigits 32 _
  have hgroups : ungroup? u.toChars = some (hexDigits 32 u.value.toNat) := by
    rw [toChars, ungroup?, filter_group fun c => ne_hyphen_of_mem_hexDigits]
    exact if_pos ⟨hlength, rfl⟩
  have hvalue : u.value.toNat % 16 ^ 32 = u.value.toNat := Nat.mod_eq_of_lt u.value.isLt
  have hlength' : u.toChars.length = 36 := length_group hlength
  rw [read?, if_neg (by omega), if_pos hlength', hgroups]
  rw [Option.bind_eq_bind, Option.bind_some, ofDigits?, if_pos hlength, hexFrom?_hexDigits, hvalue,
    Option.map_some, BitVec.ofNat_toNat, BitVec.setWidth_eq]

end Uuid

/-! ## Integers -/

/-- An integer of 64 bits is the one that its document spells. -/
theorem Numeral.integer?_ofInt {n : Int} (hlow : -9223372036854775808 ≤ n)
    (hhigh : n < 18446744073709551616) :
    Numeral.integer? ⟨n < 0, digits n.natAbs, none, none⟩ = some n := by
  have hsigned : twoPow 63 = 9223372036854775808 := rfl
  have hunsigned : twoPow 64 = 18446744073709551616 := rfl
  rw [integer?, if_pos ⟨rfl, rfl⟩]
  simp only [value_digits, decide_eq_true_eq]
  by_cases hnegative : n < 0
  · rw [if_pos hnegative, if_pos (by omega)]
    exact congrArg some (by omega)
  · rw [if_neg hnegative, if_pos (by omega)]
    exact congrArg some (by omega)

namespace Operand

theorem readInteger?_ofInt {low high n : Int} (hlow : low ≤ n) (hhigh : n ≤ high)
    (hlow' : -9223372036854775808 ≤ n) (hhigh' : n < 18446744073709551616) :
    readInteger? low high (.ofInt n) = some n := by
  rw [Json.ofInt, readInteger?, Numeral.integer?_ofInt hlow' hhigh', Option.bind_some,
    if_pos ⟨hlow, hhigh⟩]

/-! ## Documents -/

def isFloat : Operand → Bool
  | .float32 _ | .float64 _ => true
  | _ => false

/-- The operand that the text of an operand stands for. -/
def asRead : Operand → Operand
  | .decimal value => .decimal value.dropZeroSign
  | .instant value => .instant value.asRead
  | operand => operand

/-- An operand with a leap second has it behind the last second of a minute. -/
def LeapEndsMinute : Operand → Prop
  | .instant value => value.LeapEndsMinute
  | _ => True

/-- **An operand is equal to what its text stands for** unless it has a leap second within a
minute. -/
theorem equal_asRead_iff {a : Operand} (h : a.isFloat = false) :
    a.equal a.asRead = true ↔ a.LeapEndsMinute := by
  cases a with
  | instant value =>
    show (instant value == instant value.asRead) = true ↔ value.LeapEndsMinute
    calc (instant value == instant value.asRead) = true
        ↔ value.asRead = value := by rw [beq_iff_eq, instant.injEq, eq_comm]
      _ ↔ value.LeapEndsMinute := Instant.asRead_eq_iff
  | decimal value => exact iff_of_true value.equal_dropZeroSign trivial
  | float32 bits | float64 bits => cases h
  | _ => exact iff_of_true (beq_self_eq_true _) trivial

theorem readDecimal?_ofText (value : Scaled) :
    readDecimal? (.ofText value.text) = some value.dropZeroSign := by
  show (Json.text? _).bind _ = _
  rw [Json.text?_ofText, Option.bind_some, Scaled.text, String.toList_ofList, Scaled.read?_toChars]

/-- What an operand holds is read as the operand that its text stands for. -/
theorem ofHeld?_heldJson? {a : Operand} {held : Json} (h : a.heldJson? = some held) :
    held.Made ∧ ofHeld? a.sortName held = some a.asRead := by
  cases a with
  | null | float32 bits | float64 bits => cases h
  | bool value =>
    cases h
    exact ⟨.bool value, rfl⟩
  | int32 value =>
    cases h
    have hlow := value.le_toInt
    have hhigh := value.toInt_lt
    refine ⟨.integer _, ?_⟩
    rw [sortName, ofHeld?, readInteger?_ofInt (by omega) (by omega) (by omega) (by omega),
      Option.map_some, Int32.ofInt_toInt]
    rfl
  | int64 value =>
    cases h
    have hlow := value.le_toInt
    have hhigh := value.toInt_lt
    refine ⟨.integer _, ?_⟩
    rw [sortName, ofHeld?, readInteger?_ofInt (by omega) (by omega) (by omega) (by omega),
      Option.map_some, Int64.ofInt_toInt]
    rfl
  | text value =>
    cases h
    refine ⟨.text value, ?_⟩
    rw [sortName, ofHeld?, Json.text?_ofText, Option.map_some]
    rfl
  | instant value =>
    cases h
    refine ⟨.text _, ?_⟩
    rw [sortName, ofHeld?, Json.text?_ofText, Option.bind_some, String.toList_ofList,
      Instant.read?_exactText, Option.map_some]
    rfl
  | uuid value =>
    cases h
    refine ⟨.text _, ?_⟩
    rw [sortName, ofHeld?, Json.text?_ofText, Option.bind_some, String.toList_ofList,
      Uuid.read?_toChars, Option.map_some]
    rfl
  | decimal value =>
    cases h
    refine ⟨.text _, ?_⟩
    rw [sortName, ofHeld?, readDecimal?_ofText, Option.map_some, asRead]

theorem exists_heldJson? {a : Operand} (h : a.isFloat = false) (hnull : a ≠ .null) :
    ∃ held, a.heldJson? = some held := by
  cases a with
  | null => exact absurd rfl hnull
  | float32 bits | float64 bits => cases h
  | _ => exact ⟨_, rfl⟩

theorem toJson?_of_heldJson? {a : Operand} {held : Json} (h : a.heldJson? = some held) :
    a.toJson? = some (.ofMembers [(a.sortName, held)]) := by
  have hmap : ∀ name, a.heldJson?.map (fun held => Json.ofMembers [(name, held)]) =
      some (.ofMembers [(name, held)]) := fun name => by rw [h, Option.map_some]
  cases a with
  | null => cases h
  | _ => exact hmap _

/-- The null operand is written by its name, and every other one as a member under its name. -/
theorem ofJson?_toJson? {a : Operand} (h : a.isFloat = false) :
    ∃ document, a.toJson? = some document ∧ document.Made ∧
      ofJson? document = some a.asRead := by
  by_cases hnull : a = .null
  · subst hnull
    refine ⟨.ofText "Null", rfl, .text _, ?_⟩
    rw [ofJson?, Json.case?_ofText]
    rfl
  · obtain ⟨held, hheld⟩ := exists_heldJson? h hnull
    obtain ⟨hmade, hread⟩ := ofHeld?_heldJson? hheld
    refine ⟨_, toJson?_of_heldJson? hheld, .object _ ?_, ?_⟩
    · intro member hmem
      rw [List.mem_singleton.mp hmem]
      exact hmade
    · rw [ofJson?, Json.case?_ofMembers]
      exact hread

end Operand

end DeferredQuery
