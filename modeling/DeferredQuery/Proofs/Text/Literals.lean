import DeferredQuery.Proofs.Text.Folding
import Mathlib.Data.List.Forall2

/-!
# Texts with literals

A text is scanned from the left for literals: a quote opens one, a quote inside it that stands
alone closes it, and two in a row are one quote of its body. Blanking leaves the bodies out. `Alike`
is the same seen from how texts are written: characters outside literals are the same, and literals
stand in the same places, each followed by something else than a quote. Texts that are alike are put
together to texts that are alike, and look the same when they are blanked.
-/

set_option autoImplicit false

namespace DeferredQuery.Text

/-! ## Blanking -/

/-- Leaves out the bodies of the literals of a text that starts inside of one or outside. -/
def blankFrom : Bool → List Char → List Char
  | _, [] => []
  | false, c :: rest => c :: blankFrom (c == '\'') rest
  | true, '\'' :: '\'' :: rest => blankFrom true rest
  | true, '\'' :: rest => '\'' :: blankFrom false rest
  | true, _ :: rest => blankFrom true rest

/-- The text without the bodies of its literals. -/
def blank (text : String) : String := String.ofList (blankFrom false text.toList)

example : blank "a = 'it''s' AND b = '' OR c" = "a = '' AND b = '' OR c" := by decide

/-- The text does not start with a quote. -/
def NoQuoteFirst (s : List Char) : Prop := s.head? ≠ some '\''

theorem noQuoteFirst_of_notMem {s : List Char} (h : '\'' ∉ s) : NoQuoteFirst s := by
  cases s with
  | nil => nofun
  | cons c rest =>
    intro hc
    cases hc
    exact h (List.mem_cons_self ..)

/-- Nothing is left of a body, and its closing quote is the next that does not stand before
another. -/
theorem blankFrom_body {s : List Char} (body : List Char) (h : NoQuoteFirst s) :
    blankFrom true (doubleQuotes body ++ '\'' :: s) = '\'' :: blankFrom false s := by
  induction body with
  | nil =>
    cases s with
    | nil => rfl
    | cons c rest =>
      have hc : c ≠ '\'' := fun hc => h (by rw [hc]; rfl)
      simp [blankFrom, hc]
  | cons c rest ih =>
    by_cases hc : c = '\''
    · simp [doubleQuotes, hc, blankFrom, ih]
    · simp [doubleQuotes, hc, blankFrom, ih]

/-! ## Texts that are alike -/

/-- Two texts have the same characters outside literals, and literals in the same places. -/
inductive AlikeChars : List Char → List Char → Prop
  | nil : AlikeChars [] []
  | char {c : Char} {s t : List Char} (hc : c ≠ '\'') (h : AlikeChars s t) :
    AlikeChars (c :: s) (c :: t)
  | literal (a b : List Char) {s t : List Char} (hs : NoQuoteFirst s) (ht : NoQuoteFirst t)
    (h : AlikeChars s t) :
    AlikeChars ('\'' :: (doubleQuotes a ++ '\'' :: s)) ('\'' :: (doubleQuotes b ++ '\'' :: t))

namespace AlikeChars

variable {s t u v : List Char}

theorem blankFrom_eq (h : AlikeChars s t) : blankFrom false s = blankFrom false t := by
  induction h with
  | nil => rfl
  | char hc h ih =>
    have hc := beq_eq_false_iff_ne.mpr hc
    simp only [blankFrom, hc, ih]
  | literal a b hs ht h ih => simp [blankFrom, blankFrom_body _ hs, blankFrom_body _ ht, ih]

theorem of_notMem (h : '\'' ∉ s) : AlikeChars s s := by
  induction s with
  | nil => exact .nil
  | cons c rest ih =>
    rw [List.mem_cons, not_or] at h
    exact .char (Ne.symm h.1) (ih h.2)

theorem append (h : AlikeChars s t) (huv : AlikeChars u v) (hu : NoQuoteFirst u)
    (hv : NoQuoteFirst v) : AlikeChars (s ++ u) (t ++ v) := by
  have hfirst : ∀ {x y : List Char}, NoQuoteFirst x → NoQuoteFirst y → NoQuoteFirst (x ++ y) := by
    intro x y hx hy
    cases x with
    | nil => exact hy
    | cons c rest => exact hx
  induction h with
  | nil => exact huv
  | char hc h ih => exact char hc ih
  | literal a b hs ht h ih => simpa using literal a b (hfirst hs hu) (hfirst ht hv) ih

theorem prepend {x : List Char} (hx : '\'' ∉ x) (h : AlikeChars s t) :
    AlikeChars (x ++ s) (x ++ t) := by
  induction x with
  | nil => exact h
  | cons c rest ih =>
    rw [List.mem_cons, not_or] at hx
    exact char (Ne.symm hx.1) (ih hx.2)

end AlikeChars

/-- Two texts have the same characters outside literals, and literals in the same places. -/
def Alike (a b : String) : Prop := AlikeChars a.toList b.toList

/-- A text without quotes. -/
def QuoteFree (text : String) : Prop := '\'' ∉ text.toList

instance (text : String) : Decidable (QuoteFree text) := inferInstanceAs (Decidable (¬ _))

@[simp] theorem quoteFree_append {a b : String} :
    QuoteFree (a ++ b) ↔ QuoteFree a ∧ QuoteFree b := by
  simp [QuoteFree]

/-- What holds of the texts, of the one between them and of what is put together from texts of which
it holds, holds of all of them put together. -/
theorem intercalate_of_append {P : String → Prop} {x : String} {l : List String} (hempty : P "")
    (happend : ∀ {a b : String}, P a → P b → P (a ++ b)) (hx : P x) (h : ∀ text ∈ l, P text) :
    P (x.intercalate l) := by
  induction l with
  | nil =>
    rw [String.intercalate_nil]
    exact hempty
  | cons a rest ih =>
    rw [List.forall_mem_cons] at h
    cases rest with
    | nil =>
      rw [String.intercalate_singleton]
      exact h.1
    | cons b rest =>
      rw [String.intercalate_cons_cons]
      exact happend (happend h.1 hx) (ih h.2)

theorem quoteFree_intercalate {x : String} {l : List String} (hx : QuoteFree x)
    (h : ∀ text ∈ l, QuoteFree text) : QuoteFree (x.intercalate l) :=
  intercalate_of_append (by decide) (fun ha hb => quoteFree_append.mpr ⟨ha, hb⟩) hx h

namespace Alike

variable {a b c d x : String}

/-- **Texts that are alike look the same when they are blanked.** -/
theorem blank_eq (h : Alike a b) : blank a = blank b :=
  congrArg String.ofList (AlikeChars.blankFrom_eq h)

theorem of_quoteFree (h : QuoteFree a) : Alike a a := .of_notMem h

theorem quote (a b : String) : Alike (Text.quote a) (Text.quote b) := by
  simpa [Alike] using AlikeChars.literal a.toList b.toList (s := []) (t := []) nofun nofun .nil

theorem prepend (hx : QuoteFree x) (h : Alike a b) : Alike (x ++ a) (x ++ b) := by
  simpa [Alike] using AlikeChars.prepend hx h

theorem append (h : Alike a b) (hx : QuoteFree x) : Alike (a ++ x) (b ++ x) := by
  have hfirst := noQuoteFirst_of_notMem hx
  simpa [Alike] using AlikeChars.append h (.of_notMem hx) hfirst hfirst

/-- The same text between; there has to be one, since two literals side by side are one. -/
theorem join (h : Alike a b) (hx : QuoteFree x) (hne : x ≠ "") (hcd : Alike c d) :
    Alike (a ++ x ++ c) (b ++ x ++ d) := by
  have hfirst : ∀ s : List Char, NoQuoteFirst (x.toList ++ s) := by
    intro s
    cases hlist : x.toList with
    | nil => exact absurd (String.toList_eq_nil_iff.mp hlist) hne
    | cons first rest =>
      rw [QuoteFree, hlist, List.mem_cons, not_or] at hx
      exact fun hs => hx.1 (by simpa using hs.symm)
  simpa [Alike] using
    AlikeChars.append h (AlikeChars.prepend hx hcd) (hfirst _) (hfirst _)

theorem intercalate {l m : List String} (hx : QuoteFree x) (hne : x ≠ "")
    (h : List.Forall₂ Alike l m) : Alike (x.intercalate l) (x.intercalate m) := by
  induction h with
  | nil =>
    rw [String.intercalate_nil]
    exact .of_quoteFree (by decide)
  | cons hab h ih =>
    cases h with
    | nil => simpa using hab
    | cons hcd h => simpa [String.intercalate_cons_cons] using hab.join hx hne ih

end Alike

end DeferredQuery.Text
