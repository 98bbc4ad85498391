import DeferredQuery.Path.Reader
import DeferredQuery.Proofs.Text.Brackets
import DeferredQuery.Proofs.Text.Runs

/-!
# The spellings of a path

The notation of paths as a grammar, apart from the reader: a segment, and then steps to further
segments, each behind a point, behind brackets and a point, or behind the beginning of a traversal.
A traversal opens a parenthesis, which may be closed behind any later segment. Blanks may stand
anywhere.

The reader rewrites a text as a whole, one pass after the other, and never looks at the grammar.
What carries its proof is `strip`, the passes that come after the removal of blanks: it goes over a
text from left to right (`strip_point`, `strip_opening`, `strip_brackets` and so on), for nothing
that one pass takes away lets another see what was not there. So a spelling is stripped to its
segments with points between them, and these are what the reader answers.
-/

set_option autoImplicit false

namespace DeferredQuery.Path

open Text

/-! ## The notation -/

/-- The variable of a traversal: one or more letters, digits and underscores. -/
def IsVariable (v : List Char) : Prop := v ≠ [] ∧ ∀ c ∈ v, isWordChar c = true

instance (v : List Char) : Decidable (IsVariable v) :=
  @instDecidableAnd _ _ _ (List.decidableBAll (fun c => isWordChar c = true) v)

/-- The beginning `.map(v=>w` of a traversal. -/
def opening (v w : List Char) : List Char :=
  '.' :: 'm' :: 'a' :: 'p' :: '(' :: (v ++ '=' :: '>' :: w)

/-- What may follow a segment while some parentheses are open, and the segments that it leads to. A
parenthesis is closed right behind a segment, brackets stand in front of a point or at the end. -/
inductive Continues : Nat → List Char → List String → Prop
  | done (opened : Nat) : Continues opened [] []
  | brackets (opened : Nat) : Continues opened ['[', ']'] []
  | close {opened : Nat} {s : List Char} {segments : List String}
    (h : Continues opened s segments) : Continues (opened + 1) (')' :: s) segments
  | point {opened : Nat} {s : List Char} {segment : String} {segments : List String}
    (hsegment : isSegment segment = true) (h : Continues opened s segments) :
    Continues opened ('.' :: (segment.toList ++ s)) (segment :: segments)
  | bracketed {opened : Nat} {s : List Char} {segment : String} {segments : List String}
    (hsegment : isSegment segment = true) (h : Continues opened s segments) :
    Continues opened ('[' :: ']' :: '.' :: (segment.toList ++ s)) (segment :: segments)
  | traversal {opened : Nat} {v s : List Char} {segment : String} {segments : List String}
    (hv : IsVariable v) (hsegment : isSegment segment = true)
    (h : Continues (opened + 1) s segments) :
    Continues opened (opening v v ++ '.' :: (segment.toList ++ s)) (segment :: segments)

/-- A text without blanks that spells the segments: the first of them, and what leads to the
others. Parentheses may be left open at the end. -/
inductive Spelled : List Char → List String → Prop
  | intro {s : List Char} {segment : String} {segments : List String}
    (hsegment : isSegment segment = true) (h : Continues 0 s segments) :
    Spelled (segment.toList ++ s) (segment :: segments)

/-- The second text is the first with blanks put in anywhere. -/
inductive Spaced : List Char → List Char → Prop
  | nil : Spaced [] []
  | char {s t : List Char} (c : Char) (h : Spaced s t) : Spaced (c :: s) (c :: t)
  | blank {s t : List Char} {c : Char} (hc : isBlank c = true) (h : Spaced s t) :
    Spaced s (c :: t)

/-- The text spells the segments, with blanks put in anywhere. -/
def Spells (text : String) (segments : List String) : Prop :=
  ∃ s, Spaced s text.toList ∧ Spelled s segments

/-! ## Stripping -/

/-- What the reader makes of a text that has no blanks. -/
def strip (s : List Char) : List Char := dropBrackets ((dropTraversals s).filter (· ≠ ')'))

theorem wordLength_append {w s : List Char} (hw : ∀ c ∈ w, isWordChar c = true)
    (hs : Stops isWordChar s) : wordLength (w ++ s) = w.length := by
  rw [wordLength, takeWhile_run hw hs]

theorem traversalLength?_opening {v w s : List Char} (hv : IsVariable v) (hw : IsVariable w)
    (hs : Stops isWordChar s) :
    traversalLength? (opening v w ++ s) = some (opening v w).length := by
  have hname : wordLength (v ++ '=' :: '>' :: (w ++ s)) = v.length :=
    wordLength_append hv.2 (stops_cons (by decide))
  have hbody : wordLength (w ++ s) = w.length := wordLength_append hw.2 hs
  have hpos : 0 < v.length ∧ 0 < w.length :=
    ⟨List.length_pos_iff.mpr hv.1, List.length_pos_iff.mpr hw.1⟩
  simp [opening, traversalLength?, arrowLength?, hname, hbody, hpos]
  omega

theorem dropTraversalsAfter_append (skipped s : List Char) :
    dropTraversalsAfter skipped.length (skipped ++ s) = dropTraversals s := by
  induction skipped with
  | nil => rfl
  | cons c skipped ih => simpa [dropTraversalsAfter] using ih

theorem dropTraversals_cons {c : Char} {s : List Char} (h : traversalLength? (c :: s) = none) :
    dropTraversals (c :: s) = c :: dropTraversals s := by
  simp [dropTraversals, dropTraversalsAfter, h]

theorem traversalLength?_of_ne {c : Char} (hc : c ≠ '.') (s : List Char) :
    traversalLength? (c :: s) = none := by
  unfold traversalLength?
  split
  · rename_i heq
    cases heq
    exact absurd rfl hc
  · rfl

/-- Where no traversal begins, a character stays, unless it is a parenthesis or a bracket. -/
theorem strip_cons {c : Char} {s : List Char} (h : traversalLength? (c :: s) = none)
    (hclose : c ≠ ')') (hbracket : c ≠ '[') : strip (c :: s) = c :: strip s := by
  simp [strip, dropTraversals_cons h, hclose, dropBrackets, hbracket]

theorem strip_close (s : List Char) : strip (')' :: s) = strip s := by
  have hdrop := dropTraversals_cons (traversalLength?_of_ne (c := ')') (by decide) s)
  simp [strip, hdrop]

theorem strip_brackets (s : List Char) : strip ('[' :: ']' :: s) = strip s := by
  have hleft := dropTraversals_cons (traversalLength?_of_ne (c := '[') (by decide) (']' :: s))
  have hright := dropTraversals_cons (traversalLength?_of_ne (c := ']') (by decide) s)
  simp [strip, hleft, hright, dropBrackets]

theorem strip_opening {v w s : List Char} (hv : IsVariable v) (hw : IsVariable w)
    (hs : Stops isWordChar s) : strip (opening v w ++ s) = strip s := by
  have hlength := traversalLength?_opening hv hw hs
  have hdrop : dropTraversals (opening v w ++ s) = dropTraversals s := by
    rw [opening, List.cons_append] at hlength ⊢
    rw [dropTraversals, dropTraversalsAfter, hlength]
    exact dropTraversalsAfter_append _ s
  rw [strip, hdrop, strip]

/-- A word stays as it is. -/
theorem strip_word {w : List Char} (hw : ∀ c ∈ w, isWordChar c = true) (s : List Char) :
    strip (w ++ s) = w ++ strip s := by
  induction w with
  | nil => rfl
  | cons c w ih =>
    rw [List.forall_mem_cons] at hw
    have hne : ∀ d : Char, isWordChar d = false → c ≠ d := by
      rintro d hd rfl
      rw [hw.1] at hd
      cases hd
    rw [List.cons_append, strip_cons (traversalLength?_of_ne (hne '.' (by decide)) _)
      (hne ')' (by decide)) (hne '[' (by decide)), ih hw.2, List.cons_append]

/-- A point in front of a word begins no traversal, unless a parenthesis follows the word. -/
theorem traversalLength?_point {w s : List Char} (hw : ∀ c ∈ w, isWordChar c = true)
    (hs : Stops isWordChar s) (hopen : ∀ rest, s ≠ '(' :: rest) :
    traversalLength? ('.' :: (w ++ s)) = none := by
  unfold traversalLength?
  split
  · rename_i rest heq
    simp only [List.cons.injEq, true_and] at heq
    -- The word is `map`, so the parenthesis follows it.
    have hmap : (w ++ s).takeWhile isWordChar = ['m', 'a', 'p'] := by
      rw [heq]
      simp [show isWordChar 'm' = true by decide, show isWordChar 'a' = true by decide,
        show isWordChar 'p' = true by decide, show isWordChar '(' = false by decide]
    rw [takeWhile_run hw hs] at hmap
    subst hmap
    simp only [List.cons_append, List.nil_append, List.cons.injEq, true_and] at heq
    exact absurd heq (hopen rest)
  · rfl

theorem strip_point {w s : List Char} (hw : ∀ c ∈ w, isWordChar c = true) (hs : Stops isWordChar s)
    (hopen : ∀ rest, s ≠ '(' :: rest) : strip ('.' :: (w ++ s)) = '.' :: (w ++ strip s) := by
  rw [strip_cons (traversalLength?_point hw hs hopen) (by decide) (by decide), strip_word hw]

/-! ## Segments with points between them -/

/-- The segments behind the first one as a plain text has them: each behind a point. -/
def pointed (segments : List String) : List Char := segments.flatMap fun s => '.' :: s.toList

theorem toList_text_cons (first : String) (others : List String) :
    (Route.mk (first :: others)).text.toList = first.toList ++ pointed others := by
  induction others generalizing first with
  | nil => simp [Route.text, pointed]
  | cons second others ih =>
    have hrest := ih second
    simp only [Route.text] at hrest
    simp [Route.text, String.intercalate_cons_cons, hrest, pointed]

theorem fields_of_notMem {sep : Char} {s : List Char} (h : sep ∉ s) : fields sep s = [s] := by
  induction s with
  | nil => rfl
  | cons c s ih =>
    rw [List.mem_cons, not_or] at h
    simp [fields, Ne.symm h.1, ih h.2]

theorem fields_append {sep : Char} {s : List Char} (h : sep ∉ s) (rest : List Char) :
    fields sep (s ++ sep :: rest) = s :: fields sep rest := by
  induction s with
  | nil => simp [fields]
  | cons c s ih =>
    rw [List.mem_cons, not_or] at h
    simp [fields, Ne.symm h.1, ih h.2]

/-- Segments without points are the fields of their text. -/
theorem fields_text {first : String} {others : List String}
    (h : ∀ s ∈ first :: others, '.' ∉ s.toList) :
    fields '.' (Route.mk (first :: others)).text.toList = (first :: others).map String.toList := by
  induction others generalizing first with
  | nil =>
    rw [toList_text_cons, pointed, List.flatMap_nil, List.append_nil]
    exact fields_of_notMem (h first List.mem_cons_self)
  | cons second others ih =>
    have hfirst := h first List.mem_cons_self
    have hrest := ih fun s hs => h s (List.mem_cons_of_mem first hs)
    rw [toList_text_cons] at hrest ⊢
    rw [pointed, List.flatMap_cons, ← pointed, List.cons_append, fields_append hfirst, hrest]
    rfl

/-- A text is its fields with the separator between them. -/
theorem text_fields (s : List Char) :
    (Route.mk ((fields '.' s).map String.ofList)).text.toList = s := by
  induction s with
  | nil => rfl
  | cons c s ih =>
    obtain ⟨piece, pieces, hfields⟩ := List.exists_cons_of_ne_nil (fields_ne_nil '.' s)
    rw [hfields, List.map_cons, toList_text_cons, String.toList_ofList] at ih
    rw [fields, hfields]
    by_cases hc : c = '.'
    · rw [if_pos hc, ← ih, hc]
      simp [toList_text_cons, pointed]
    · rw [if_neg hc, ← ih]
      simp [toList_text_cons]

theorem ofSegments_eq_ok_iff {segments : List String} {path : Path} :
    ofSegments segments = .ok path ↔
      path.segments = segments ∧ ∀ s ∈ segments, isSegment s = true := by
  cases segments with
  | nil =>
    constructor
    · intro h
      cases h
    · rintro ⟨h, _⟩
      simp [Path.segments] at h
  | cons first others =>
    have hpath : ∀ p, ofSegments? (first :: others) = some p ↔ p.segments = first :: others := by
      intro p
      refine ⟨segments_of_ofSegments?, fun hsegments => ?_⟩
      simp [ofSegments?, ← hsegments, Path.segments]
    obtain ⟨p, hp⟩ : ∃ p, ofSegments? (first :: others) = some p := ⟨_, rfl⟩
    rw [← hpath, ofSegments, hp]
    cases hfound : (first :: others).find? (fun s => !isSegment s) with
    | none =>
      rw [List.find?_eq_none] at hfound
      have hall : ∀ s ∈ first :: others, isSegment s = true := by simpa using hfound
      simp only [Except.ok.injEq, Option.some.injEq]
      exact ⟨fun h => ⟨h, hall⟩, fun h => h.1⟩
    | some bad =>
      have hmem := List.mem_of_find?_eq_some hfound
      have hbad := List.find?_some hfound
      constructor
      · intro h
        cases h
      · rintro ⟨_, hall⟩
        simp [hall bad hmem] at hbad

theorem point_notMem {segment : String} (h : isSegment segment = true) : '.' ∉ segment.toList :=
  fun hpoint => absurd (IsWord.of_isIdentifier h _ hpoint) (by decide)

/-- **What the reader takes**: the texts that are stripped to the text of a path whose segments are
identifiers. -/
theorem parse_eq_ok_iff {text : String} {path : Path} :
    parse text = .ok path ↔
      strip (text.toList.filter (!isBlank ·)) = path.text.toList ∧
        ∀ s ∈ path.segments, isSegment s = true := by
  obtain ⟨first, others, hsegments⟩ : ∃ first others, path.segments = first :: others :=
    List.exists_cons_of_ne_nil (by simp [Path.segments])
  have hflat : flatten text.toList = strip (text.toList.filter (!isBlank ·)) := rfl
  rw [parse, hflat, Path.text, Path.route, hsegments]
  generalize strip (text.toList.filter (!isBlank ·)) = flat
  constructor
  · intro h
    split at h
    · cases h
    · obtain ⟨heq, hall⟩ := ofSegments_eq_ok_iff.mp h
      rw [← hsegments, heq]
      exact ⟨(text_fields flat).symm, hall⟩
  · rintro ⟨rfl, hall⟩
    have hfields := fields_text fun s hs => point_notMem (hall s hs)
    split
    · rename_i hnil
      -- The first segment is not empty.
      have hfirst := hall first List.mem_cons_self
      rw [toList_text_cons, List.append_eq_nil_iff] at hnil
      rw [isSegment, hnil.1] at hfirst
      cases hfirst
    · rw [hfields, ofSegments_eq_ok_iff, hsegments]
      simpa [Function.comp_def] using hall

/-! ## Reading a spelling -/

/-- No word character is a blank: the blanks up to the last letter are below the first digit. -/
theorem isBlank_of_isWordChar {c : Char} (h : isWordChar c = true) : isBlank c = false := by
  have hrange : 0x21 ≤ c.toNat ∧ c.toNat < 0x80 := by
    have hclass : isWordChar c = ((decide (65 ≤ c.val ∧ c.val ≤ 90) ||
        (decide (97 ≤ c.val) && decide (c.val ≤ 122))) || c.isDigit || c == '_') := rfl
    rw [hclass] at h
    simp only [Bool.or_eq_true, Bool.and_eq_true, decide_eq_true_eq, Char.isDigit_iff_toNat,
      beq_iff_eq, UInt32.le_iff_toNat_le] at h
    have hval : c.toNat = c.val.toNat := rfl
    rcases h with ((h | h) | h) | rfl
    · simp at h
      omega
    · simp at h
      omega
    · simp at h
      omega
    · decide
  exact isBlank_of_visible hrange

theorem filter_of_spaced {s t : List Char} (h : Spaced s t) (hs : ∀ c ∈ s, isBlank c = false) :
    t.filter (!isBlank ·) = s := by
  induction h with
  | nil => rfl
  | char c h ih =>
    rw [List.forall_mem_cons] at hs
    simp [hs.1, ih hs.2]
  | blank hc h ih => simp [hc, ih hs]

/-- What follows a segment begins with a point, a bracket or a closing parenthesis. -/
theorem Continues.stops {opened : Nat} {s : List Char} {segments : List String}
    (h : Continues opened s segments) : Stops isWordChar s ∧ ∀ rest, s ≠ '(' :: rest := by
  cases h with
  | done => exact ⟨stops_nil, nofun⟩
  | _ => exact ⟨stops_cons (by decide), nofun⟩

theorem mem_of_isSegment {segment : String} (h : isSegment segment = true) :
    ∀ c ∈ segment.toList, isWordChar c = true := IsWord.of_isIdentifier h

theorem Continues.not_isBlank {opened : Nat} {s : List Char} {segments : List String}
    (h : Continues opened s segments) : ∀ c ∈ s, isBlank c = false := by
  have hword : ∀ {w : List Char}, (∀ c ∈ w, isWordChar c = true) → ∀ c ∈ w, isBlank c = false :=
    fun hw c hc => isBlank_of_isWordChar (hw c hc)
  induction h with
  | done => exact nofun
  | brackets =>
    simp only [List.forall_mem_cons]
    exact ⟨by decide, by decide, nofun⟩
  | close h ih => exact List.forall_mem_cons.mpr ⟨by decide, ih⟩
  | point hsegment h ih =>
    rw [List.forall_mem_cons, List.forall_mem_append]
    exact ⟨by decide, hword (mem_of_isSegment hsegment), ih⟩
  | bracketed hsegment h ih =>
    simp only [List.forall_mem_cons, List.forall_mem_append]
    exact ⟨by decide, by decide, by decide, hword (mem_of_isSegment hsegment), ih⟩
  | traversal hv hsegment h ih =>
    simp only [opening, List.cons_append, List.append_assoc, List.forall_mem_cons,
      List.forall_mem_append]
    exact ⟨by decide, by decide, by decide, by decide, by decide, hword hv.2, by decide, by decide,
      hword hv.2, by decide, hword (mem_of_isSegment hsegment), ih⟩

theorem Spelled.not_isBlank {s : List Char} {segments : List String} (h : Spelled s segments) :
    ∀ c ∈ s, isBlank c = false := by
  cases h with
  | intro hsegment h =>
    rw [List.forall_mem_append]
    exact ⟨fun c hc => isBlank_of_isWordChar (mem_of_isSegment hsegment c hc), h.not_isBlank⟩

/-- What follows a segment is stripped to the segments that it leads to. -/
theorem Continues.strip {opened : Nat} {s : List Char} {segments : List String}
    (h : Continues opened s segments) : strip s = pointed segments := by
  induction h with
  | done | brackets => rfl
  | close h ih => rw [strip_close, ih]
  | point hsegment h ih =>
    obtain ⟨hstop, hopen⟩ := h.stops
    rw [strip_point (mem_of_isSegment hsegment) hstop hopen, ih]
    rfl
  | bracketed hsegment h ih =>
    obtain ⟨hstop, hopen⟩ := h.stops
    rw [strip_brackets, strip_point (mem_of_isSegment hsegment) hstop hopen, ih]
    rfl
  | traversal hv hsegment h ih =>
    obtain ⟨hstop, hopen⟩ := h.stops
    rw [strip_opening hv hv (stops_cons (by decide)),
      strip_point (mem_of_isSegment hsegment) hstop hopen, ih]
    rfl

theorem Continues.isSegment_of_mem {opened : Nat} {s : List Char} {segments : List String}
    (h : Continues opened s segments) : ∀ segment ∈ segments, isSegment segment = true := by
  induction h with
  | done | brackets => exact nofun
  | close h ih => exact ih
  | point hsegment h ih | bracketed hsegment h ih | traversal _ hsegment h ih =>
    exact List.forall_mem_cons.mpr ⟨hsegment, ih⟩

/-- Plain text continues a segment. -/
theorem continues_pointed (opened : Nat) {segments : List String}
    (h : ∀ segment ∈ segments, isSegment segment = true) :
    Continues opened (pointed segments) segments := by
  induction segments with
  | nil => exact .done opened
  | cons segment segments ih =>
    rw [List.forall_mem_cons] at h
    exact .point h.1 (ih h.2)

theorem spaced_refl (s : List Char) : Spaced s s := by
  induction s with
  | nil => exact .nil
  | cons c s ih => exact .char c ih

theorem spaced_filter (t : List Char) : Spaced (t.filter (!isBlank ·)) t := by
  induction t with
  | nil => exact .nil
  | cons c t ih =>
    by_cases hc : isBlank c = true
    · simpa [hc] using Spaced.blank hc ih
    · simpa [hc] using Spaced.char c ih

theorem Spells.parse {text : String} {segments : List String} (h : Spells text segments) :
    ∃ path, parse text = .ok path ∧ path.segments = segments := by
  obtain ⟨s, hspaced, hspelled⟩ := h
  have hplain := filter_of_spaced hspaced hspelled.not_isBlank
  cases hspelled with
  | @intro rest first others hfirst h =>
    have hword := mem_of_isSegment hfirst
    obtain ⟨path, hpath⟩ : ∃ path, ofSegments? (first :: others) = some path := ⟨_, rfl⟩
    have hsegments := segments_of_ofSegments? hpath
    refine ⟨path, parse_eq_ok_iff.mpr ⟨?_, ?_⟩, hsegments⟩
    · rw [hplain, strip_word hword, h.strip, Path.text, Path.route,
        hsegments, toList_text_cons]
    · rw [hsegments]
      exact List.forall_mem_cons.mpr ⟨hfirst, h.isSegment_of_mem⟩

/-- A path of identifiers is spelled by its own text. -/
theorem spells_text {path : Path} (h : ∀ s ∈ path.segments, isSegment s = true) :
    Spells path.text path.segments := by
  obtain ⟨first, others, hsegments⟩ : ∃ first others, path.segments = first :: others :=
    List.exists_cons_of_ne_nil (by simp [Path.segments])
  rw [hsegments, List.forall_mem_cons] at h
  refine ⟨_, spaced_refl _, ?_⟩
  rw [Path.text, Path.route, hsegments, toList_text_cons]
  exact .intro h.1 (continues_pointed 0 h.2)

/-- The segments determine the path. -/
theorem segments_injective : Function.Injective Path.segments := by
  intro p q h
  obtain ⟨hrelations, hleaf⟩ := List.append_inj' h rfl
  cases p
  cases q
  cases hrelations
  cases hleaf
  rfl

/-- **Every spelling is read.** A text that spells some segments, with traversals in one another,
parentheses closed behind any later segment or not at all, and blanks put in anywhere, is read as
the path of these segments. So the text of a path that was made of segments or read is read as the
path again. -/
theorem spelling_is_read :
    (∀ (text : String) (segments : List String), Spells text segments →
      ∃ path, parse text = .ok path ∧ path.segments = segments) ∧
    ∀ path : Path, ((∃ segments, ofSegments segments = .ok path) ∨ ∃ text, parse text = .ok path) →
      parse path.text = .ok path := by
  refine ⟨fun text segments h => h.parse, fun path hmade => ?_⟩
  have hall : ∀ s ∈ path.segments, isSegment s = true := by
    rcases hmade with ⟨segments, hsegments⟩ | ⟨text, htext⟩
    · obtain ⟨rfl, hall⟩ := ofSegments_eq_ok_iff.mp hsegments
      exact hall
    · exact (parse_eq_ok_iff.mp htext).2
  obtain ⟨other, hparse, hsegments⟩ := (spells_text hall).parse
  rw [segments_injective hsegments] at hparse
  exact hparse

/-- A traversal in another one, over a segment that is named as traversals begin, with blanks of
three kinds. -/
theorem spelling_of_map_is_read :
    let text := "a.map(v => v.map\n.m ap(_1=>_1.b[]\u2003.c).d )"
    let segments := ["a", "map", "b", "c", "d"]
    Spells text segments ∧
    (∃ path, parse text = .ok path ∧ path.segments = segments) ∧
    ofSegments segments = .ok ⟨["a", "map", "b", "c"], "d"⟩ ∧
    parse "a.map.b.c.d" = .ok ⟨["a", "map", "b", "c"], "d"⟩ := by
  intro text segments
  have hplain : text.toList.filter (!isBlank ·) = "a.map(v=>v.map.map(_1=>_1.b[].c).d)".toList := by
    decide
  have hlast : Continues 2 ").d)".toList ["d"] :=
    .close (@Continues.point 1 [')'] "d" [] (by decide) (.close (.done 0)))
  have hinner : Continues 2 "[].c).d)".toList ["c", "d"] :=
    @Continues.bracketed 2 _ "c" _ (by decide) hlast
  have htraversals : Continues 0 ".map(v=>v.map.map(_1=>_1.b[].c).d)".toList
      ["map", "b", "c", "d"] :=
    @Continues.traversal 0 ['v'] _ "map" _ (by decide) (by decide)
      (@Continues.traversal 1 ['_', '1'] _ "b" _ (by decide) (by decide) hinner)
  have hspells : Spells text segments := by
    refine ⟨_, spaced_filter _, ?_⟩
    rw [hplain]
    exact @Spelled.intro _ "a" _ (by decide) htraversals
  exact ⟨hspells, spelling_is_read.1 text segments hspells, rfl,
    spelling_is_read.2 ⟨["a", "map", "b", "c"], "d"⟩ (.inl ⟨segments, rfl⟩)⟩

end DeferredQuery.Path
