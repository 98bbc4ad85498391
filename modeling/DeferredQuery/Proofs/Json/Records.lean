import DeferredQuery.Json.Record
import DeferredQuery.Proofs.Json.Reading

/-!
# Typed values read back from their documents

What the writer makes of texts, members and cases means these again.
-/

set_option autoImplicit false

namespace DeferredQuery.Json

@[simp] theorem text?_ofText (value : String) : (ofText value).text? = some value := by
  simp [ofText, text?, unspell?_spell]

theorem members?_ofMembers (members : List (String × Json)) :
    (ofMembers members).members? = some members := by
  rw [ofMembers, members?]
  induction members with
  | nil => rfl
  | cons member members ih => simp [unspell?_spell, ih]

/-- The fields of an object are looked up one by one. -/
theorem fields?_ofMembers (names : List String) (members : List (String × Json)) :
    (ofMembers members).fields? names = names.mapM (member? · members) := by
  have h := members?_ofMembers members
  rw [ofMembers] at h ⊢
  simp only [fields?, h]
  rfl

@[simp] theorem case?_ofText (name : String) : (ofText name).case? = some (name, none) := by
  simp [ofText, case?, unspell?_spell]

theorem case?_ofMembers (name : String) (held : Json) :
    (ofMembers [(name, held)]).case? = some (name, some held) := by
  have h := members?_ofMembers [(name, held)]
  rw [ofMembers] at h ⊢
  simp only [case?, h]
  rfl

end DeferredQuery.Json
