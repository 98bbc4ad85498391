import DeferredQuery.Proofs.Path.Spelling

/-!
# Stray marks in a path

The reader deletes parentheses, brackets and beginnings of traversals before it looks at the
segments, so it also takes texts that the notation does not have: in `a)b` the two names become one.
Here it is said which of the texts that it takes are spellings. Three marks have to be in place, and
each is judged by what follows it: a closing parenthesis by the character behind it (and by whether
one is open), brackets and the beginning of a traversal by the step behind them. Nothing has to be
said about what stands before a mark, for what is left of the text has to be a path.
-/

set_option autoImplicit false

namespace DeferredQuery.Path

open Text

/-! ## Marks in place -/

/-- The text begins with the beginning of a traversal. -/
def Opens (s : List Char) : Prop :=
  ∃ v w rest, s = opening v w ++ rest ∧ IsVariable v ∧ IsVariable w

/-- The text begins with a point, and with no traversal. -/
def PlainStep (s : List Char) : Prop := (∃ rest, s = '.' :: rest) ∧ ¬ Opens s

/-- Whether a character is at its place between two texts, if it is one of the marks that the reader
deletes. A closing parenthesis closes one, and no name goes on behind it. A bracket is closed at
once, and then the text ends or a plain step follows. A traversal repeats the name of its variable,
and a plain step follows. -/
def InPlace (before : List Char) (c : Char) (after : List Char) : Prop :=
  match c with
  | ')' => before.count ')' < before.count '(' ∧ Stops isWordChar after
  | '[' => after = [']'] ∨ ∃ rest, after = ']' :: rest ∧ PlainStep rest
  | '.' => ∀ v w rest, '.' :: after = opening v w ++ rest → IsVariable v → IsVariable w →
      Stops isWordChar rest → v = w ∧ PlainStep rest
  | _ => True

/-- Every character of the second text is in place behind the first one and what is before it. -/
def TidyFrom (front s : List Char) : Prop :=
  ∀ before c after, s = before ++ c :: after → InPlace (front ++ before) c after

/-- A text without blanks in which every mark is in place. -/
def Tidy (s : List Char) : Prop := ∀ before c after, s = before ++ c :: after →
  InPlace before c after

theorem tidyFrom_nil (front : List Char) : TidyFrom front [] := by
  intro before c after h
  simp at h

theorem tidyFrom_cons {front s : List Char} {c : Char} :
    TidyFrom front (c :: s) ↔ InPlace front c s ∧ TidyFrom (front ++ [c]) s := by
  constructor
  · intro h
    refine ⟨by simpa using h [] c s rfl, fun before d after heq => ?_⟩
    subst heq
    simpa using h (c :: before) d after rfl
  · rintro ⟨hc, hs⟩ before d after heq
    cases before with
    | nil =>
      cases heq
      simpa using hc
    | cons b before =>
      cases heq
      simpa using hs before d after rfl

theorem TidyFrom.behind {front u s : List Char} (h : TidyFrom front (u ++ s)) :
    TidyFrom (front ++ u) s := by
  intro before c after heq
  subst heq
  simpa using h (u ++ before) c after (List.append_assoc _ _ _).symm

theorem inPlace_of_isWordChar {c : Char} (hc : isWordChar c = true) (before after : List Char) :
    InPlace before c after := by
  unfold InPlace
  split
  · exact absurd hc (by decide)
  · exact absurd hc (by decide)
  · exact absurd hc (by decide)
  · trivial

theorem tidyFrom_word {front w s : List Char} (hw : ∀ c ∈ w, isWordChar c = true) :
    TidyFrom front (w ++ s) ↔ TidyFrom (front ++ w) s := by
  induction w generalizing front with
  | nil => simp
  | cons c w ih =>
    rw [List.forall_mem_cons] at hw
    rw [List.cons_append, tidyFrom_cons, ih hw.2, List.append_assoc, List.singleton_append]
    exact and_iff_right (inPlace_of_isWordChar hw.1 front (w ++ s))

/-! ## Traversals -/

theorem drop_wordLength (s : List Char) : s.drop (wordLength s) = s.dropWhile isWordChar := by
  have hsplit := List.takeWhile_append_dropWhile (p := isWordChar) (l := s)
  calc s.drop (wordLength s)
      = (s.takeWhile isWordChar ++ s.dropWhile isWordChar).drop (wordLength s) := by rw [hsplit]
    _ = s.dropWhile isWordChar := List.drop_left

theorem isVariable_takeWhile {s : List Char} (h : 0 < wordLength s) :
    IsVariable (s.takeWhile isWordChar) :=
  ⟨List.length_pos_iff.mp h, fun _ hc => List.mem_takeWhile_imp hc⟩

/-- What the reader takes for the beginning of a traversal is one. -/
theorem exists_opening {s : List Char} {n : Nat} (h : traversalLength? s = some n) :
    ∃ v w rest, s = opening v w ++ rest ∧ IsVariable v ∧ IsVariable w ∧ Stops isWordChar rest := by
  unfold traversalLength? at h
  split at h
  · rename_i rest
    obtain ⟨m, hm, -⟩ := Option.map_eq_some_iff.mp h
    unfold arrowLength? at hm
    simp only [drop_wordLength] at hm
    split at hm
    · rename_i body harrow
      split at hm
      · rename_i hpos
        refine ⟨rest.takeWhile isWordChar, body.takeWhile isWordChar, body.dropWhile isWordChar, ?_,
          isVariable_takeWhile hpos.1, isVariable_takeWhile hpos.2, stops_dropWhile isWordChar body⟩
        have hrest := List.takeWhile_append_dropWhile (p := isWordChar) (l := rest)
        have hbody := List.takeWhile_append_dropWhile (p := isWordChar) (l := body)
        rw [harrow] at hrest
        simp only [opening, List.cons_append, List.append_assoc, hbody, hrest]
      · cases hm
    · cases hm
  · cases h

/-- The reader takes no traversal exactly where none begins. -/
theorem traversalLength?_eq_none_iff {s : List Char} : traversalLength? s = none ↔ ¬ Opens s := by
  constructor
  · rintro h ⟨v, w, rest, rfl, hv, hw⟩
    -- The word of the body may go on in the rest.
    have hrest := List.takeWhile_append_dropWhile (p := isWordChar) (l := rest)
    have hlong : IsVariable (w ++ rest.takeWhile isWordChar) :=
      ⟨by simp [hw.1], List.forall_mem_append.mpr ⟨hw.2, fun _ hc => List.mem_takeWhile_imp hc⟩⟩
    have hopens := traversalLength?_opening hv hlong (stops_dropWhile isWordChar rest)
    have heq : opening v (w ++ rest.takeWhile isWordChar) ++ rest.dropWhile isWordChar =
        opening v w ++ rest := by
      simp [opening, hrest]
    rw [heq, h] at hopens
    cases hopens
  · intro h
    cases hlength : traversalLength? s with
    | none => rfl
    | some n =>
      obtain ⟨v, w, rest, hs, hv, hw, -⟩ := exists_opening hlength
      exact absurd ⟨v, w, rest, hs, hv, hw⟩ h

/-- The beginning of a traversal is read in one way only. -/
theorem opening_inj {v w s v' w' s' : List Char} (hv : IsVariable v) (hw : IsVariable w)
    (hs : Stops isWordChar s) (hv' : IsVariable v') (hw' : IsVariable w') (hs' : Stops isWordChar s')
    (h : opening v w ++ s = opening v' w' ++ s') : v = v' ∧ w = w' ∧ s = s' := by
  have hlength := traversalLength?_opening hv hw hs
  rw [h, traversalLength?_opening hv' hw' hs', Option.some.injEq] at hlength
  obtain ⟨hopening, hrest⟩ := List.append_inj h hlength.symm
  have hequals : ∀ t, Stops isWordChar ('=' :: t) := fun t => stops_cons (by decide)
  simp only [opening, List.cons.injEq, true_and] at hopening
  have hnames := congrArg (List.takeWhile isWordChar) hopening
  rw [takeWhile_run hv.2 (hequals _), takeWhile_run hv'.2 (hequals _)] at hnames
  subst hnames
  exact ⟨rfl, by simpa using hopening, hrest⟩

/-! ## A spelling is tidy -/

theorem inPlace_point {after : List Char} (h : ¬ Opens ('.' :: after)) (before : List Char) :
    InPlace before '.' after := by
  intro v w rest heq hv hw _
  exact absurd ⟨v, w, rest, heq, hv, hw⟩ h

theorem count_word {w : List Char} (hw : ∀ c ∈ w, isWordChar c = true) :
    w.count '(' = 0 ∧ w.count ')' = 0 := by
  rw [List.count_eq_zero, List.count_eq_zero]
  exact ⟨fun h => absurd (hw _ h) (by decide), fun h => absurd (hw _ h) (by decide)⟩

theorem Continues.not_opens {opened : Nat} {s : List Char} {segment : String}
    {segments : List String} (h : Continues opened s segments)
    (hsegment : isSegment segment = true) :
    ¬ Opens ('.' :: (segment.toList ++ s)) :=
  traversalLength?_eq_none_iff.mp
    (traversalLength?_point (mem_of_isSegment hsegment) h.stops.1 h.stops.2)

/-- Behind a segment, with as many parentheses open as the text before has, marks are in place. -/
theorem Continues.tidyFrom {opened : Nat} {s : List Char} {segments : List String}
    (h : Continues opened s segments) {front : List Char}
    (hcount : front.count '(' = front.count ')' + opened) : TidyFrom front s := by
  induction h generalizing front with
  | done => exact tidyFrom_nil front
  | brackets =>
    simp only [tidyFrom_cons]
    exact ⟨.inl rfl, trivial, tidyFrom_nil _⟩
  | close h ih =>
    rw [tidyFrom_cons]
    refine ⟨⟨by omega, h.stops.1⟩, ih ?_⟩
    simp
    omega
  | @point opened s segment segments hsegment h ih =>
    have hword := mem_of_isSegment hsegment
    rw [tidyFrom_cons, tidyFrom_word hword]
    refine ⟨inPlace_point (h.not_opens hsegment) front, ih ?_⟩
    simpa [count_word hword] using hcount
  | @bracketed opened s segment segments hsegment h ih =>
    have hword := mem_of_isSegment hsegment
    have hplain := h.not_opens hsegment
    simp only [tidyFrom_cons, tidyFrom_word hword]
    refine ⟨.inr ⟨_, rfl, ⟨_, rfl⟩, hplain⟩, trivial, inPlace_point hplain _, ih ?_⟩
    simpa [count_word hword] using hcount
  | @traversal opened v s segment segments hv hsegment h ih =>
    have hword := mem_of_isSegment hsegment
    have hplain := h.not_opens hsegment
    have hfirst : InPlace front '.' ("map(".toList ++ (v ++ '=' :: '>' :: (v ++ '.' ::
        (segment.toList ++ s)))) := by
      intro v' w' rest heq hv' hw' hrest
      have heq' : opening v v ++ '.' :: (segment.toList ++ s) = opening v' w' ++ rest := by
        rw [← heq]
        simp [opening]
      obtain ⟨rfl, rfl, rfl⟩ :=
        opening_inj hv hv (stops_cons (by decide)) hv' hw' hrest heq'
      exact ⟨rfl, ⟨_, rfl⟩, hplain⟩
    simp only [opening, List.cons_append, List.append_assoc, tidyFrom_cons, tidyFrom_word hv.2,
      tidyFrom_word hword]
    refine ⟨hfirst, trivial, trivial, trivial, trivial, trivial, trivial, inPlace_point hplain _,
      ih ?_⟩
    simp [count_word hword, count_word hv.2, hcount]
    omega

theorem Spelled.tidy {s : List Char} {segments : List String} (h : Spelled s segments) :
    Tidy s := by
  cases h with
  | intro hsegment h =>
    have hword := mem_of_isSegment hsegment
    have htidy : TidyFrom [] _ :=
      (tidyFrom_word hword).mpr (h.tidyFrom (by simp [count_word hword]))
    exact fun before c after heq => htidy before c after heq

/-! ## A tidy text that is taken is a spelling -/

theorem stops_pointed (segments : List String) : Stops isWordChar (pointed segments) := by
  cases segments with
  | nil => exact stops_nil
  | cons segment segments => exact stops_cons (by decide)

/-- In a tidy text no name goes on behind what is stripped from it. -/
theorem TidyFrom.stops_strip {front s : List Char} (h : TidyFrom front s)
    (hs : Stops isWordChar s) : Stops isWordChar (strip s) := by
  induction s generalizing front with
  | nil => exact stops_nil
  | cons c s ih =>
    obtain ⟨hc, hrest⟩ := tidyFrom_cons.mp h
    have hpoint : ∀ rest, ¬ Opens ('.' :: rest) → Stops isWordChar (strip ('.' :: rest)) := by
      intro rest hplain
      rw [strip_cons (traversalLength?_eq_none_iff.mpr hplain) (by decide) (by decide)]
      exact stops_cons (by decide)
    by_cases hclose : c = ')'
    · subst hclose
      rw [strip_close]
      exact ih hrest hc.2
    by_cases hbracket : c = '['
    · subst hbracket
      rcases hc with rfl | ⟨_, rfl, ⟨rest, rfl⟩, hplain⟩
      · exact stops_nil
      · rw [strip_brackets]
        exact hpoint rest hplain
    cases hlength : traversalLength? (c :: s) with
    | none =>
      rw [strip_cons hlength hclose hbracket]
      exact stops_cons (hs c s rfl)
    | some n =>
      obtain ⟨v, w, after, heq, hv, hw, hafter⟩ := exists_opening hlength
      obtain rfl : c = '.' := by
        rw [opening, List.cons_append] at heq
        exact (List.cons.inj heq).1
      obtain ⟨rfl, ⟨rest, rfl⟩, hplain⟩ := hc v w after heq hv hw hafter
      rw [heq, strip_opening hv hv hafter]
      exact hpoint rest hplain

/-- A name that is left of a tidy text has stood there as it is. -/
theorem TidyFrom.split_word {front s w t : List Char} (h : TidyFrom front s)
    (hw : ∀ c ∈ w, isWordChar c = true) (ht : Stops isWordChar t) (hstrip : strip s = w ++ t) :
    ∃ r, s = w ++ r ∧ Stops isWordChar r ∧ strip r = t := by
  have hlongest : ∀ c ∈ s.takeWhile isWordChar, isWordChar c = true :=
    fun _ hc => List.mem_takeWhile_imp hc
  have hsplit := List.takeWhile_append_dropWhile (p := isWordChar) (l := s)
  generalize s.takeWhile isWordChar = name at hlongest hsplit
  have hrest := stops_dropWhile isWordChar s
  generalize s.dropWhile isWordChar = r at hrest hsplit
  subst hsplit
  have hr := ((tidyFrom_word hlongest).mp h).stops_strip hrest
  rw [strip_word hlongest] at hstrip
  -- Both sides are a longest word and what follows it.
  have hname := congrArg (List.takeWhile isWordChar) hstrip
  rw [takeWhile_run hlongest hr, takeWhile_run hw ht] at hname
  subst hname
  exact ⟨r, rfl, hrest, List.append_cancel_left hstrip⟩

/-- Where a plain step stands in a tidy text, it leads to the next of the segments that are left. -/
theorem TidyFrom.split_step {front rest : List Char} {segments : List String}
    (h : TidyFrom front ('.' :: rest)) (hplain : ¬ Opens ('.' :: rest))
    (hsegments : ∀ segment ∈ segments, isSegment segment = true)
    (hstrip : strip ('.' :: rest) = pointed segments) :
    ∃ segment others r, segments = segment :: others ∧ rest = segment.toList ++ r ∧
      isSegment segment = true ∧ (∀ s ∈ others, isSegment s = true) ∧ Stops isWordChar r ∧
      strip r = pointed others ∧ TidyFrom (front ++ '.' :: segment.toList) r := by
  rw [strip_cons (traversalLength?_eq_none_iff.mpr hplain) (by decide) (by decide)] at hstrip
  cases segments with
  | nil => cases hstrip
  | cons segment others =>
    rw [List.forall_mem_cons] at hsegments
    simp only [pointed, List.flatMap_cons, List.cons_append, List.cons.injEq, true_and] at hstrip
    have hword := mem_of_isSegment hsegments.1
    have hrest := (tidyFrom_cons.mp h).2
    obtain ⟨r, rfl, hr, hstripped⟩ := hrest.split_word hword (stops_pointed others) hstrip
    refine ⟨segment, others, r, rfl, rfl, hsegments.1, hsegments.2, hr, hstripped, ?_⟩
    simpa using (tidyFrom_word hword).mp hrest

theorem eq_nil_of_pointed {segments : List String} (h : pointed segments = []) : segments = [] := by
  cases segments with
  | nil => rfl
  | cons segment segments => cases h

/-- What follows a segment in a tidy text continues it as the notation has it, if segments are what
is left of it. The induction is on the length, for a step takes a mark and a whole segment away. -/
theorem TidyFrom.continues (n : Nat) {front s : List Char} {opened : Nat} {segments : List String}
    (hlength : s.length ≤ n) (h : TidyFrom front s)
    (hcount : front.count '(' = front.count ')' + opened) (hs : Stops isWordChar s)
    (hsegments : ∀ segment ∈ segments, isSegment segment = true)
    (hstrip : strip s = pointed segments) : Continues opened s segments := by
  induction n generalizing front s opened segments with
  | zero =>
    obtain rfl := List.length_eq_zero_iff.mp (Nat.le_zero.mp hlength)
    obtain rfl := eq_nil_of_pointed hstrip.symm
    exact .done opened
  | succ n ih =>
    cases s with
    | nil =>
      obtain rfl := eq_nil_of_pointed hstrip.symm
      exact .done opened
    | cons c s =>
      obtain ⟨hc, hrest⟩ := tidyFrom_cons.mp h
      rw [List.length_cons, Nat.succ_le_succ_iff] at hlength
      by_cases hclose : c = ')'
      · subst hclose
        obtain ⟨k, rfl⟩ : ∃ k, opened = k + 1 := Nat.exists_eq_add_one.mpr (by have := hc.1; omega)
        refine .close (ih hlength hrest ?_ hc.2 hsegments (strip_close s ▸ hstrip))
        simp
        omega
      by_cases hbracket : c = '['
      · subst hbracket
        rcases hc with rfl | ⟨_, rfl, ⟨rest, rfl⟩, hplain⟩
        · obtain rfl := eq_nil_of_pointed hstrip.symm
          exact .brackets opened
        · rw [strip_brackets] at hstrip
          obtain ⟨segment, others, r, rfl, rfl, hsegment, hothers, hr, hstripped, htidy⟩ :=
            (tidyFrom_cons.mp hrest).2.split_step hplain hsegments hstrip
          refine .bracketed hsegment (ih ?_ htidy ?_ hr hothers hstripped)
          · simp at hlength
            omega
          · simpa [count_word (mem_of_isSegment hsegment)] using hcount
      cases htraversal : traversalLength? (c :: s) with
      | some length =>
        obtain ⟨v, w, after, heq, hv, hw, hafter⟩ := exists_opening htraversal
        obtain rfl : c = '.' := by
          rw [opening, List.cons_append] at heq
          exact (List.cons.inj heq).1
        obtain ⟨rfl, ⟨rest, rfl⟩, hplain⟩ := hc v w after heq hv hw hafter
        rw [heq, strip_opening hv hv hafter] at hstrip
        rw [heq] at h
        obtain ⟨segment, others, r, rfl, rfl, hsegment, hothers, hr, hstripped, htidy⟩ :=
          h.behind.split_step hplain hsegments hstrip
        rw [heq]
        refine .traversal hv hsegment (ih ?_ htidy ?_ hr hothers hstripped)
        · have hwhole := congrArg List.length heq
          simp [opening] at hwhole
          omega
        · simp [opening, count_word (mem_of_isSegment hsegment), count_word hv.2, hcount]
          omega
      | none =>
        have hplain := traversalLength?_eq_none_iff.mp htraversal
        by_cases hpoint : c = '.'
        · subst hpoint
          obtain ⟨segment, others, r, rfl, rfl, hsegment, hothers, hr, hstripped, htidy⟩ :=
            h.split_step hplain hsegments hstrip
          refine .point hsegment (ih ?_ htidy ?_ hr hothers hstripped)
          · simp at hlength
            omega
          · simpa [count_word (mem_of_isSegment hsegment)] using hcount
        · -- Any other character would be left, and what is left begins with a point.
          rw [strip_cons htraversal hclose hbracket] at hstrip
          cases segments with
          | nil => cases hstrip
          | cons segment others => exact absurd (List.cons.inj hstrip).1 hpoint

/-! ## The texts that are taken -/

/-- A text without blanks that is stripped to segments and is tidy spells them. -/
theorem Tidy.spelled {s : List Char} {first : String} {others : List String} (h : Tidy s)
    (hfirst : isSegment first = true) (hothers : ∀ segment ∈ others, isSegment segment = true)
    (hstrip : strip s = first.toList ++ pointed others) : Spelled s (first :: others) := by
  have htidy : TidyFrom [] s := fun before c after heq => h before c after heq
  have hword := mem_of_isSegment hfirst
  obtain ⟨r, rfl, hr, hrest⟩ := htidy.split_word hword (stops_pointed others) hstrip
  refine .intro hfirst (htidy.behind.continues r.length le_rfl ?_ hr hothers hrest)
  simp [count_word hword]

/-- Blanks put into a text and taken out again leave the text, if it had none. -/
theorem spells_iff {text : String} {segments : List String} :
    Spells text segments ↔ Spelled (text.toList.filter (!isBlank ·)) segments := by
  constructor
  · rintro ⟨s, hspaced, hspelled⟩
    rwa [filter_of_spaced hspaced hspelled.not_isBlank]
  · intro h
    exact ⟨_, spaced_filter _, h⟩

/-- **A text that is taken is a spelling exactly if its marks are in place.** The reader takes more
than the notation has, for it deletes the marks wherever they stand. Of the texts that it takes, those
spell the segments that it answers in which each closing parenthesis closes one and no name goes on
behind it, each bracket is closed at once and then the text ends or a plain step follows, and each
traversal repeats the name of its variable and a plain step follows. -/
theorem taken_text_spells_iff {text : String} {path : Path} (h : parse text = .ok path) :
    Spells text path.segments ↔ Tidy (text.toList.filter (!isBlank ·)) := by
  obtain ⟨hstrip, hall⟩ := parse_eq_ok_iff.mp h
  obtain ⟨first, others, hsegments⟩ : ∃ first others, path.segments = first :: others :=
    List.exists_cons_of_ne_nil (by simp [Path.segments])
  rw [Path.text, Path.route, hsegments, toList_text_cons] at hstrip
  rw [hsegments, List.forall_mem_cons] at hall
  rw [spells_iff, hsegments]
  exact ⟨fun hspelled => hspelled.tidy, fun htidy => htidy.spelled hall.1 hall.2 hstrip⟩

/-- Brackets in front of a point are in place, and brackets between two names are not. -/
theorem brackets_in_and_out_of_place :
    (parse "a [ ].b" = .ok ⟨["a"], "b"⟩ ∧ Spells "a [ ].b" ["a", "b"]) ∧
    (parse "a[]b.c" = .ok ⟨["ab"], "c"⟩ ∧ ¬ Spells "a[]b.c" ["ab", "c"]) := by
  have hplace : parse "a [ ].b" = .ok ⟨["a"], "b"⟩ := by rfl
  have hstray : parse "a[]b.c" = .ok ⟨["ab"], "c"⟩ := by rfl
  refine ⟨⟨hplace, (taken_text_spells_iff hplace).mpr ?_⟩, hstray, fun hspells => ?_⟩
  · have hplain : ¬ Opens ['.', 'b'] := traversalLength?_eq_none_iff.mp (by decide)
    have htidy : TidyFrom [] ['a', '[', ']', '.', 'b'] := by
      simp only [tidyFrom_cons]
      exact ⟨trivial, .inr ⟨_, rfl, ⟨_, rfl⟩, hplain⟩, trivial, inPlace_point hplain _, trivial,
        tidyFrom_nil _⟩
    exact fun before c after heq => htidy before c after heq
  · have htidy := (taken_text_spells_iff hstray).mp hspells
    rcases htidy ['a'] '[' "]b.c".toList (by decide) with hend | ⟨rest, hrest, ⟨next, rfl⟩, -⟩
    · cases hend
    · cases hrest

/-- Names that a closing parenthesis or a pair of brackets divides become one, and a name in the
place of the variable of a traversal gets lost. -/
theorem stray_marks_are_taken :
    (parse "a)b" = .ok ⟨[], "ab"⟩ ∧ ¬ Spells "a)b" ["ab"]) ∧
    (parse "a[]b" = .ok ⟨[], "ab"⟩ ∧ ¬ Spells "a[]b" ["ab"]) ∧
    (parse "a.map(o=>items)" = .ok ⟨[], "a"⟩ ∧ ¬ Spells "a.map(o=>items)" ["a"]) := by
  refine ⟨⟨rfl, fun h => ?_⟩, ⟨rfl, fun h => ?_⟩, rfl, fun h => ?_⟩
  · have htidy := (spells_iff.mp h).tidy
    exact absurd (htidy ['a'] ')' ['b'] (by decide)).1 (by decide)
  · have htidy := (spells_iff.mp h).tidy
    rcases htidy ['a'] '[' [']', 'b'] (by decide) with hend | ⟨rest, hrest, ⟨next, rfl⟩, -⟩
    · cases hend
    · cases hrest
  · have htidy := (spells_iff.mp h).tidy
    have hstep := htidy ['a'] '.' "map(o=>items)".toList (by decide) ['o'] "items".toList [')']
      (by decide) (by decide) (by decide) (stops_cons (by decide))
    exact absurd hstep.1 (by decide)

end DeferredQuery.Path
