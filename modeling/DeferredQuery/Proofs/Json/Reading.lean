import DeferredQuery.Json.Writer
import DeferredQuery.Proofs.Json.Spelling

/-!
# Documents of JSON read back

A document that is made of texts and integers, of lists of such documents, and of members under
texts as keys, is read back from what the writer makes of it. The induction is on how the document
is made; for each value it says what the reader does with the value's text and anything that may
follow a value behind it, with a bound for the reader's calls that is twice the length of the text.
-/

set_option autoImplicit false

namespace DeferredQuery.Json

open Number Text

/-- The documents that the library makes: their strings are spelled texts and their numbers are
integers. -/
inductive Made : Json → Prop
  | null : Made .null
  | bool (value : Bool) : Made (.bool value)
  | integer (n : Int) : Made (.ofInt n)
  | text (value : String) : Made (.ofText value)
  | array (items : List Json) (h : ∀ item ∈ items, Made item) : Made (.array items)
  | object (members : List (String × Json)) (h : ∀ m ∈ members, Made m.2) :
    Made (.ofMembers members)

/-- What may follow a value: nothing, a comma, or the end of what the value is in. -/
def AfterValue (s : List Char) : Prop := ∀ c rest, s = c :: rest → c = ',' ∨ c = ']' ∨ c = '\x7d'

theorem afterValue_nil : AfterValue [] := nofun

theorem afterValue_cons {c : Char} {s : List Char} (h : c = ',' ∨ c = ']' ∨ c = '\x7d') :
    AfterValue (c :: s) := by
  intro d rest heq
  cases heq
  exact h

theorem dropGaps_cons {c : Char} {s : List Char} (h : isGap c = false) :
    dropGaps (c :: s) = c :: s := by
  simp [dropGaps, h]

/-! ## Integers -/

theorem readWhole?_digits (n : Nat) {s : List Char} (hs : Stops Char.isDigit s) :
    readWhole? (digits n ++ s) = some (digits n, s) := by
  obtain rfl | ⟨c, rest, hdigits, hc⟩ := digits_head n
  · rfl
  · have hspan := @spanDigits_append (digits n) s (fun _ h => isDigit_of_mem_digits h) hs
    rw [hdigits] at hspan ⊢
    simp [readWhole?, hc, readDigits?] at hspan ⊢
    simp [hspan]

theorem AfterValue.stops {s : List Char} (h : AfterValue s) : Stops Char.isDigit s := by
  intro c rest heq
  obtain rfl | rfl | rfl := h c rest heq <;> rfl

/-- What follows a value is neither a fraction nor an exponent. -/
theorem AfterValue.readFraction? {s : List Char} (h : AfterValue s) :
    readFraction? s = some (none, s) := by
  cases s with
  | nil => rfl
  | cons c s => obtain rfl | rfl | rfl := h c s rfl <;> rfl

theorem AfterValue.readExponent? {s : List Char} (h : AfterValue s) :
    readExponent? s = some (none, s) := by
  cases s with
  | nil => rfl
  | cons c s => obtain rfl | rfl | rfl := h c s rfl <;> rfl

theorem readUnsigned?_digits (negative : Bool) (n : Nat) {s : List Char} (hs : AfterValue s) :
    readUnsigned? negative (digits n ++ s) = some (⟨negative, digits n, none, none⟩, s) := by
  simp [readUnsigned?, readWhole?_digits n hs.stops, hs.readFraction?, hs.readExponent?]

/-- An integer as the writer has it: a sign if it is negative, and digits. -/
theorem toChars_ofInt (n : Int) :
    (ofInt n).toChars = if n < 0 then '-' :: digits n.natAbs else digits n.natAbs := by
  by_cases h : n < 0 <;> simp [ofInt, toChars, Numeral.toChars, h]

theorem readNumeral?_ofInt (n : Int) {s : List Char} (hs : AfterValue s) :
    (readNumeral? ((ofInt n).toChars ++ s)).map (fun (numeral, rest) => (number numeral, rest)) =
      some (ofInt n, s) := by
  rw [toChars_ofInt]
  by_cases h : n < 0
  · simp [h, readNumeral?, readUnsigned?_digits true n.natAbs hs, ofInt]
  · obtain ⟨c, rest, hdigits, hdigit⟩ := exists_digits_eq_cons n.natAbs
    have hc : c ≠ '-' := ne_of_isDigit hdigit rfl
    have hread := readUnsigned?_digits false n.natAbs hs
    rw [hdigits] at hread
    rw [if_neg h, hdigits]
    simp [readNumeral?, hc] at hread ⊢
    simp [hread, ofInt, h, hdigits]

/-- What an integer begins with: a digit or a sign. -/
def isNumeralHead (c : Char) : Bool := c == '-' || c.isDigit

theorem exists_head_ofInt (n : Int) :
    ∃ c rest, (ofInt n).toChars = c :: rest ∧ isNumeralHead c = true := by
  rw [toChars_ofInt]
  split
  · exact ⟨_, _, rfl, rfl⟩
  · obtain ⟨c, rest, hdigits, hdigit⟩ := exists_digits_eq_cons n.natAbs
    exact ⟨c, rest, hdigits, by simp [isNumeralHead, hdigit]⟩

theorem ne_of_isNumeralHead {c d : Char} (hc : isNumeralHead c = true)
    (hd : isNumeralHead d = false) : c ≠ d := by
  rintro rfl
  rw [hd] at hc
  cases hc

theorem isGap_of_isNumeralHead {c : Char} (h : isNumeralHead c = true) : isGap c = false := by
  have hne := fun d => @ne_of_isNumeralHead c d h
  simp [isGap, hne ' ' rfl, hne '\n' rfl, hne '\t' rfl, hne '\r' rfl]

/-- So it is not taken for another value. -/
theorem readValue?_ofInt (n : Int) (fuel : Nat) {s : List Char} (hs : AfterValue s) :
    readValue? (fuel + 1) ((ofInt n).toChars ++ s) = some (ofInt n, s) := by
  have hread := readNumeral?_ofInt n hs
  obtain ⟨c, rest, htext, hhead⟩ := exists_head_ofInt n
  have hne := fun d => @ne_of_isNumeralHead c d hhead
  rw [htext, List.cons_append] at hread ⊢
  rw [readValue?, dropGaps_cons (isGap_of_isNumeralHead hhead)]
  simpa [hne 'n' rfl, hne 't' rfl, hne 'f' rfl, hne '"' rfl, hne '[' rfl, hne '\x7b' rfl]
    using hread

/-! ## Documents -/

/-- The text of the document is read as the document, if the calls may go as deep as twice its
length, whatever comes after the value. -/
def ReadsBack (d : Json) : Prop :=
  ∀ (fuel : Nat) (rest : List Char), 2 * d.toChars.length ≤ fuel → AfterValue rest →
    readValue? fuel (d.toChars ++ rest) = some (d, rest)

/-- A value begins neither with a blank nor with a bracket that closes. -/
theorem Made.exists_head {d : Json} (h : Made d) :
    ∃ c rest, d.toChars = c :: rest ∧ isGap c = false ∧ c ≠ ']' := by
  cases h with
  | null => exact ⟨_, _, rfl, rfl, by decide⟩
  | bool value => cases value <;> exact ⟨_, _, rfl, rfl, by decide⟩
  | integer n =>
    obtain ⟨c, rest, htext, hhead⟩ := exists_head_ofInt n
    exact ⟨c, rest, htext, isGap_of_isNumeralHead hhead, ne_of_isNumeralHead hhead rfl⟩
  | text value => exact ⟨_, _, rfl, rfl, by decide⟩
  | array items h | object members h =>
    rw [toChars.eq_def]
    exact ⟨_, _, rfl, rfl, by decide⟩

/-- A document has a text, so there is always one call to spend on it. -/
theorem readsBack_of_succ {d : Json} (hne : d.toChars ≠ [])
    (h : ∀ (fuel : Nat) (rest : List Char), 2 * d.toChars.length ≤ fuel + 1 → AfterValue rest →
      readValue? (fuel + 1) (d.toChars ++ rest) = some (d, rest)) : ReadsBack d := by
  intro fuel rest hfuel hrest
  have hpos : 0 < d.toChars.length := List.length_pos_iff.mpr hne
  obtain ⟨fuel, rfl⟩ : ∃ k, fuel = k + 1 := Nat.exists_eq_add_one.mpr (by omega)
  exact h fuel rest hfuel hrest

theorem readsBack_ofInt (n : Int) : ReadsBack (ofInt n) := by
  obtain ⟨c, tail, htext, -⟩ := exists_head_ofInt n
  exact readsBack_of_succ (htext ▸ List.cons_ne_nil c tail) fun fuel _ _ hrest =>
    readValue?_ofInt n fuel hrest

theorem toChars_ofText (value : String) :
    (ofText value).toChars = '"' :: (spell value.toList ++ ['"']) := by
  rw [ofText, toChars, quoted]

theorem readsBack_ofText (value : String) : ReadsBack (ofText value) := by
  have htext := toChars_ofText value
  refine readsBack_of_succ (htext ▸ List.cons_ne_nil _ _) fun fuel rest _ _ => ?_
  have hread := readString?_spell value.toList rest
  rw [htext, List.cons_append, List.append_assoc, List.singleton_append, readValue?,
    dropGaps_cons rfl]
  simp [hread, ofText]

theorem itemChars_cons_cons (item next : Json) (items : List Json) :
    itemChars (item :: next :: items) = item.toChars ++ ',' :: itemChars (next :: items) := by
  rw [itemChars]
  exact List.cons_ne_nil next items

/-- Items are read up to the bracket that closes them. -/
theorem readItems?_itemChars {items : List Json} (hitems : ∀ item ∈ items, ReadsBack item)
    (hne : items ≠ []) {fuel : Nat} (hfuel : 2 * (itemChars items).length + 1 ≤ fuel)
    (rest : List Char) :
    readItems? fuel (itemChars items ++ ']' :: rest) = some (items, rest) := by
  induction items generalizing fuel with
  | nil => exact absurd rfl hne
  | cons item items ih =>
    obtain ⟨fuel, rfl⟩ : ∃ k, fuel = k + 1 := Nat.exists_eq_add_one.mpr (by omega)
    rw [List.forall_mem_cons] at hitems
    cases items with
    | nil =>
      rw [itemChars] at hfuel ⊢
      have hitem := hitems.1 fuel (']' :: rest) (by omega) (afterValue_cons (by simp))
      simp [readItems?, hitem, dropGaps_cons, isGap]
    | cons next items =>
      rw [itemChars_cons_cons] at hfuel ⊢
      simp only [List.length_append, List.length_cons] at hfuel
      have hitem := hitems.1 fuel (',' :: (itemChars (next :: items) ++ ']' :: rest)) (by omega)
        (afterValue_cons (by simp))
      have hrest := @ih hitems.2 (List.cons_ne_nil _ _) fuel (by omega)
      simp [readItems?, hitem, hrest, dropGaps_cons, isGap]

/-- Items begin as the first of them does, so they are not taken for the end of an empty array. -/
theorem exists_head_itemChars {items : List Json} (h : ∀ item ∈ items, Made item)
    (hne : items ≠ []) :
    ∃ c rest, itemChars items = c :: rest ∧ isGap c = false ∧ c ≠ ']' := by
  cases items with
  | nil => exact absurd rfl hne
  | cons item items =>
    obtain ⟨c, tail, htext, hgap, hclose⟩ := (h item List.mem_cons_self).exists_head
    cases items with
    | nil => exact ⟨c, tail, by rw [itemChars, htext], hgap, hclose⟩
    | cons next items =>
      exact ⟨c, _, by rw [itemChars_cons_cons, htext, List.cons_append], hgap, hclose⟩

theorem readsBack_array {items : List Json} (h : ∀ item ∈ items, Made item)
    (hitems : ∀ item ∈ items, ReadsBack item) : ReadsBack (.array items) := by
  have htext : (array items).toChars = '[' :: (itemChars items ++ [']']) := by rw [toChars]
  refine readsBack_of_succ (htext ▸ List.cons_ne_nil _ _) fun fuel rest hfuel _ => ?_
  rw [htext] at hfuel ⊢
  simp only [List.length_cons, List.length_append] at hfuel
  by_cases hne : items = []
  · subst hne
    simp [itemChars, readValue?, dropGaps_cons, isGap]
  · have hread := @readItems?_itemChars items hitems hne fuel (by omega) rest
    obtain ⟨c, tail, htail, hgap, hclose⟩ := exists_head_itemChars h hne
    rw [htail] at hread ⊢
    simp only [List.cons_append] at hread
    simp [readValue?, dropGaps_cons, isGap, dropGaps_cons hgap, hclose, hread]

/-- The members of an object as the writer has them. -/
def spelled (members : List (String × Json)) : List (List Char × Json) :=
  members.map fun (key, value) => (spell key.toList, value)

theorem memberChars_cons_cons (key : List Char) (value : Json) (next : List Char × Json)
    (members : List (List Char × Json)) :
    memberChars ((key, value) :: next :: members) =
      quoted key ++ ':' :: value.toChars ++ ',' :: memberChars (next :: members) := by
  rw [memberChars]
  exact List.cons_ne_nil next members

theorem readMembers?_memberChars {members : List (String × Json)}
    (hmembers : ∀ m ∈ members, ReadsBack m.2) (hne : members ≠ []) {fuel : Nat}
    (hfuel : 2 * (memberChars (spelled members)).length + 1 ≤ fuel) (rest : List Char) :
    readMembers? fuel (memberChars (spelled members) ++ '\x7d' :: rest) =
      some (spelled members, rest) := by
  induction members generalizing fuel with
  | nil => exact absurd rfl hne
  | cons member members ih =>
    obtain ⟨key, value⟩ := member
    obtain ⟨fuel, rfl⟩ : ∃ k, fuel = k + 1 := Nat.exists_eq_add_one.mpr (by omega)
    rw [List.forall_mem_cons] at hmembers
    have hread : ReadsBack value := hmembers.1
    have hkey := readString?_spell key.toList
    cases members with
    | nil =>
      simp only [spelled, List.map_cons, List.map_nil, memberChars, quoted, List.length_append,
        List.length_cons] at hfuel ⊢
      have hvalue := hread fuel ('\x7d' :: rest) (by omega) (afterValue_cons (by simp))
      simp [readMembers?, hkey, hvalue, dropGaps_cons, isGap]
    | cons next members =>
      have hspelled : spelled ((key, value) :: next :: members) =
          (spell key.toList, value) :: (spell next.1.toList, next.2) :: spelled members := rfl
      have hnext : spelled (next :: members) = (spell next.1.toList, next.2) :: spelled members :=
        rfl
      rw [hspelled, memberChars_cons_cons, ← hnext] at hfuel ⊢
      simp only [quoted, List.length_append, List.length_cons] at hfuel
      have hvalue := hread fuel
        (',' :: (memberChars (spelled (next :: members)) ++ '\x7d' :: rest)) (by omega)
        (afterValue_cons (by simp))
      have hrest := @ih hmembers.2 (List.cons_ne_nil _ _) fuel (by omega)
      simp [readMembers?, quoted, hkey, hvalue, hrest, dropGaps_cons, isGap]

theorem exists_memberChars_eq_cons {members : List (String × Json)} (hne : members ≠ []) :
    ∃ rest, memberChars (spelled members) = '"' :: rest := by
  cases members with
  | nil => exact absurd rfl hne
  | cons member members =>
    cases members with
    | nil => exact ⟨_, rfl⟩
    | cons next members => exact ⟨_, rfl⟩

theorem readsBack_ofMembers {members : List (String × Json)}
    (hmembers : ∀ m ∈ members, ReadsBack m.2) : ReadsBack (.ofMembers members) := by
  have htext : (ofMembers members).toChars =
      '\x7b' :: (memberChars (spelled members) ++ ['\x7d']) := by
    rw [ofMembers, toChars, spelled]
  refine readsBack_of_succ (htext ▸ List.cons_ne_nil _ _) fun fuel rest hfuel _ => ?_
  rw [htext] at hfuel ⊢
  simp only [List.length_cons, List.length_append] at hfuel
  by_cases hne : members = []
  · subst hne
    simp [spelled, memberChars, readValue?, ofMembers, dropGaps_cons, isGap]
  · have hread := @readMembers?_memberChars members hmembers hne fuel (by omega) rest
    obtain ⟨tail, htail⟩ := exists_memberChars_eq_cons hne
    rw [htail] at hread ⊢
    simp only [List.cons_append] at hread
    simp [readValue?, dropGaps_cons, isGap, hread]
    rfl

/-- **What is made is read back**, in front of anything that may follow a value. -/
theorem Made.readsBack {d : Json} (h : Made d) : ReadsBack d := by
  induction h with
  | null => exact readsBack_of_succ (List.cons_ne_nil _ _) fun _ _ _ _ => rfl
  | bool value =>
    cases value with
    | true | false => exact readsBack_of_succ (List.cons_ne_nil _ _) fun _ _ _ _ => rfl
  | integer n => exact readsBack_ofInt n
  | text value => exact readsBack_ofText value
  | array items h ih => exact readsBack_array h ih
  | object members _ ih => exact readsBack_ofMembers ih

/-- **A document is read back from its text.** -/
theorem Made.read?_write {d : Json} (h : Made d) : read? d.write = some d := by
  have hread := h.readsBack (2 * d.toChars.length + 2) [] (by omega) afterValue_nil
  rw [List.append_nil] at hread
  simp [read?, write, hread, dropGaps]

end DeferredQuery.Json
