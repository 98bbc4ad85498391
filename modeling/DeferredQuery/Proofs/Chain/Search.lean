import DeferredQuery.Chain.Condition

/-!
# The last element that meets a condition

`findLast?` is how a chain finds the join of an alias and the part that waits for a comparison. What
it finds is told by position: an element that meets the condition, with none after it that does.
Elements added at the end that do not meet the condition change nothing, which is why a part that
waits is found again after other calls.
-/

set_option autoImplicit false

namespace DeferredQuery.Chain

variable {α : Type} {p : α → Bool} {xs ys : List α}

theorem findLast?_eq_none_iff : findLast? p xs = none ↔ ∀ a ∈ xs, p a = false := by
  induction xs with
  | nil => simp [findLast?]
  | cons a rest ih =>
    simp only [findLast?]
    cases hr : findLast? p rest with
    | some found =>
      -- Something in the rest meets the condition, so both sides are false.
      have : ¬ ∀ b ∈ rest, p b = false := fun h => by rw [ih.mpr h] at hr; cases hr
      simp only [reduceCtorEq, false_iff]
      exact fun h => this fun b hb => h b (List.mem_cons_of_mem _ hb)
    | none =>
      have hrest := ih.mp hr
      cases ha : p a with
      | true => simp [ha]
      | false => simpa [ha] using hrest

theorem exists_findLast? {a : α} (h : a ∈ xs) (ha : p a = true) :
    ∃ found, findLast? p xs = some found := by
  refine Option.ne_none_iff_exists'.mp fun hnone => ?_
  rw [findLast?_eq_none_iff.mp hnone a h] at ha
  cases ha

/-- What is found is at its position, meets the condition, and nothing after it does. -/
theorem findLast?_some {i : Nat} {a : α} (h : findLast? p xs = some (i, a)) :
    xs[i]? = some a ∧ p a = true ∧ ∀ j b, i < j → xs[j]? = some b → p b = false := by
  induction xs generalizing i a with
  | nil => simp [findLast?] at h
  | cons c rest ih =>
    simp only [findLast?] at h
    cases hr : findLast? p rest with
    | some found =>
      obtain ⟨k, d⟩ := found
      obtain ⟨hk, hd, hafter⟩ := ih hr
      rw [hr] at h
      cases h
      refine ⟨hk, hd, fun j b hj hb => ?_⟩
      cases j with
      | zero => omega
      | succ j => exact hafter j b (by omega) (by simpa using hb)
    | none =>
      rw [hr] at h
      dsimp only at h
      by_cases hc : p c = true
      · rw [if_pos hc] at h
        cases h
        refine ⟨rfl, hc, fun j b hj hb => ?_⟩
        cases j with
        | zero => omega
        | succ j =>
          exact findLast?_eq_none_iff.mp hr b (List.mem_of_getElem? (by simpa using hb))
      · rw [if_neg hc] at h
        cases h

theorem findLast?_eq_some_iff {i : Nat} {a : α} :
    findLast? p xs = some (i, a) ↔
      xs[i]? = some a ∧ p a = true ∧ ∀ j b, i < j → xs[j]? = some b → p b = false := by
  refine ⟨findLast?_some, fun ⟨hi, ha, hlast⟩ => ?_⟩
  cases h : findLast? p xs with
  | none =>
    have := findLast?_eq_none_iff.mp h a (List.mem_of_getElem? hi)
    rw [ha] at this
    cases this
  | some found =>
    obtain ⟨j, b⟩ := found
    obtain ⟨hj, hb, hafter⟩ := findLast?_some h
    rcases Nat.lt_trichotomy i j with hlt | rfl | hlt
    · rw [hlast j b hlt hj] at hb
      cases hb
    · rw [hi] at hj
      cases hj
      rfl
    · rw [hafter i a hlt hi] at ha
      cases ha

/-- What replaces the element that was found is found in its place. -/
theorem findLast?_set {i : Nat} {a b : α} (h : findLast? p xs = some (i, a)) (hb : p b = true) :
    findLast? p (xs.set i b) = some (i, b) := by
  obtain ⟨hi, _, hlater⟩ := findLast?_some h
  refine findLast?_eq_some_iff.mpr ⟨?_, hb, fun j c hj hc => hlater j c hj ?_⟩
  · rw [List.getElem?_set_self (List.getElem?_eq_some_iff.mp hi).1]
  · rwa [List.getElem?_set_ne (by omega)] at hc

/-- Elements at the end that do not meet the condition are passed over. -/
theorem findLast?_append_of_forall (h : ∀ a ∈ ys, p a = false) :
    findLast? p (xs ++ ys) = findLast? p xs := by
  induction xs with
  | nil => exact findLast?_eq_none_iff.mpr h
  | cons a rest ih => simp only [List.cons_append, findLast?, ih]

theorem findLast?_append_singleton {a : α} (h : p a = true) :
    findLast? p (xs ++ [a]) = some (xs.length, a) :=
  findLast?_eq_some_iff.mpr ⟨by simp, h, fun j b hj hb => by
    rw [List.getElem?_eq_none (by simp; omega)] at hb
    cases hb⟩

end DeferredQuery.Chain
