import ExerciseAudit.Proofs.Heading

/-!
# The grammar of headings

What the lines of a text are, and which of them are headings, is said here without a reader. A
`Headline` is one to six marks, blanks, a title, and perhaps more blanks behind it; a line can be
written so in one way at most (`Heading.Headline.line_injective`). The headings of a text are the
titles of just those lines (`Heading.ofText_exact`), and a title is any text that stays on a line and
neither starts nor ends with a blank.
-/

namespace ExerciseAudit

namespace Text

/-- A text is cut into lines: at every line feed, to which a carriage return right before it
belongs, and at the end, unless nothing stands behind the last line feed. -/
inductive CutInto : List Char → List (List Char) → Prop
  | nothing : CutInto [] []
  | last {line : List Char} (inhabited : line ≠ []) (clean : '\n' ∉ line) : CutInto line [line]
  | feed {line rest : List Char} {lines : List (List Char)} (clean : '\n' ∉ line)
      (bare : line.getLast? ≠ some '\r') (later : CutInto rest lines) :
      CutInto (line ++ '\n' :: rest) (line :: lines)
  | returned {line rest : List Char} {lines : List (List Char)} (clean : '\n' ∉ line)
      (later : CutInto rest lines) : CutInto (line ++ '\r' :: '\n' :: rest) (line :: lines)

/-- A text that goes on behind a line feed has the line before it first. -/
theorem lines_append_newline {line : List Char} (clean : '\n' ∉ line) (rest : List Char) :
    lines (line ++ '\n' :: rest) = dropReturn line :: lines rest := by
  obtain ⟨first, others, cut⟩ := List.exists_cons_of_ne_nil (segments_ne_nil rest)
  rw [lines, lines, segments_append_newline clean, cut, linesOfSegments]

theorem dropReturn_concat (line : List Char) : dropReturn (line ++ ['\r']) = line := by
  simp [dropReturn]

/-- A text is cut into its lines. -/
theorem cutInto_lines (text : List Char) : CutInto text (lines text) := by
  induction size : text.length using Nat.strong_induction_on generalizing text with
  | _ length ih =>
    by_cases feed : '\n' ∈ text
    · obtain ⟨line, rest, rfl, clean⟩ := List.eq_append_cons_of_mem feed
      have later : CutInto rest (lines rest) := by
        refine ih rest.length ?_ rest rfl
        simp only [← size, List.length_append, List.length_cons]
        omega
      rw [lines_append_newline clean]
      by_cases ends : line.getLast? = some '\r'
      · obtain ⟨front, rfl⟩ := List.getLast?_eq_some_iff.mp ends
        rw [dropReturn_concat, List.append_assoc, List.singleton_append]
        exact .returned (fun inside => clean (List.mem_append_left _ inside)) later
      · rw [dropReturn, if_neg ends]
        exact .feed clean ends later
    · rw [lines, segments_of_notMem feed, linesOfSegments]
      split
      case isTrue vacant =>
        rw [List.isEmpty_iff.mp vacant]
        exact .nothing
      case isFalse inhabited => exact .last (by simpa using inhabited) feed

/-- A text is cut into its lines, and in no other way. -/
theorem cutInto_iff {text : List Char} {parts : List (List Char)} :
    CutInto text parts ↔ parts = lines text := by
  constructor
  · intro cut
    induction cut with
    | nothing => rfl
    | last inhabited clean =>
      rw [lines, segments_of_notMem clean, linesOfSegments, if_neg (by simpa using inhabited)]
    | feed clean bare _ ih =>
      rw [lines_append_newline clean, dropReturn, if_neg bare, ih]
    | @returned line rest _ clean _ ih =>
      have whole : '\n' ∉ line ++ ['\r'] := by simp [clean]
      have joined : line ++ '\r' :: '\n' :: rest = (line ++ ['\r']) ++ '\n' :: rest := by simp
      rw [joined, lines_append_newline whole, dropReturn_concat, ih]
  · rintro rfl
    exact cutInto_lines text

/-! ## Blanks at the ends -/

theorem trimEnd_eq_self {text : List Char} (stop : ∀ c ∈ text.getLast?, isBlank c = false) :
    trimEnd text = text := by
  refine List.rdropWhile_eq_self_iff.mpr fun inhabited => ?_
  rw [stop _ (List.getLast?_eq_some_getLast inhabited)]
  simp

theorem trimEnd_append {blanks : List Char} (blank : ∀ c ∈ blanks, isBlank c = true)
    (text : List Char) : trimEnd (text ++ blanks) = trimEnd text := by
  induction blanks using List.reverseRecOn with
  | nil => rw [List.append_nil]
  | append_singleton front last ih =>
    obtain ⟨before, here⟩ := List.forall_mem_append.mp blank
    rw [← List.append_assoc, trimEnd_concat, if_pos (here last (List.mem_singleton_self last)),
      ih before]

/-- What stands at the end of a text once its blanks are gone is not one. -/
theorem isBlank_getLast?_trimEnd (text : List Char) :
    ∀ c ∈ (trimEnd text).getLast?, isBlank c = false := by
  intro c last
  obtain ⟨front, ends⟩ := List.getLast?_eq_some_iff.mp last
  have inhabited : text.rdropWhile isBlank ≠ [] := fun vacant => by
    rw [show trimEnd text = [] from vacant] at last
    cases last
  have visible := List.rdropWhile_last_not isBlank text inhabited
  have same : (text.rdropWhile isBlank).getLast inhabited = c :=
    List.getLast_of_getLast?_eq_some last
  rwa [same, Bool.not_eq_true] at visible

end Text

namespace Heading

open Text

/-- A line that is a heading: one to six marks, blanks, a title with nothing blank at its ends, and
perhaps more blanks. -/
@[ext]
structure Headline where
  marks : Nat
  gap : List Char
  title : List Char
  tail : List Char
  few : 1 ≤ marks ∧ marks ≤ 6
  apart : gap ≠ []
  gap_blank : ∀ c ∈ gap, isBlank c = true
  tail_blank : ∀ c ∈ tail, isBlank c = true
  inhabited : title ≠ []
  start : ∀ c ∈ title.head?, isBlank c = false
  stop : ∀ c ∈ title.getLast?, isBlank c = false

namespace Headline

/-- How a heading is written. -/
def line (headline : Headline) : List Char :=
  List.replicate headline.marks '#' ++ (headline.gap ++ (headline.title ++ headline.tail))

variable (headline : Headline)

/-- A headline starts with its markers, and with no more of them. -/
theorem takeWhile_line :
    headline.line.takeWhile (· == '#') = List.replicate headline.marks '#' ∧
      headline.line.dropWhile (· == '#') = headline.gap ++ (headline.title ++ headline.tail) := by
  obtain ⟨first, others, split⟩ := List.exists_cons_of_ne_nil headline.apart
  have unmarked : (first == '#') = false := by
    rw [beq_eq_false_iff_ne]
    rintro rfl
    exact absurd (headline.gap_blank '#' (split ▸ List.mem_cons_self)) (by decide)
  have marks : ∀ c ∈ List.replicate headline.marks '#', (c == '#') = true := by simp
  rw [line, List.takeWhile_append_of_pos marks, List.dropWhile_append_of_pos marks, split]
  simp [unmarked]

/-- Behind the markers come the blanks of the gap, and no more of them. -/
theorem takeWhile_gap :
    (headline.gap ++ (headline.title ++ headline.tail)).takeWhile isBlank = headline.gap ∧
      (headline.gap ++ (headline.title ++ headline.tail)).dropWhile isBlank =
        headline.title ++ headline.tail := by
  obtain ⟨first, others, split⟩ := List.exists_cons_of_ne_nil headline.inhabited
  have visible : isBlank first = false := headline.start first (by rw [split]; rfl)
  rw [List.takeWhile_append_of_pos headline.gap_blank,
    List.dropWhile_append_of_pos headline.gap_blank, split]
  simp [visible]

/-- What is trimmed off the rest is the tail, and leaves the title. -/
theorem trimEnd_title : trimEnd (headline.title ++ headline.tail) = headline.title := by
  rw [trimEnd_append headline.tail_blank, trimEnd_eq_self headline.stop]

/-- A line is a heading in one way at most. -/
theorem line_injective : Function.Injective line := by
  intro first second same
  have marks := (takeWhile_line first).1
  have rest := (takeWhile_line first).2
  rw [same, (takeWhile_line second).1, List.replicate_inj] at marks
  rw [same, (takeWhile_line second).2] at rest
  have gap := (takeWhile_gap first).1
  have titled := (takeWhile_gap first).2
  rw [← rest, (takeWhile_gap second).1] at gap
  rw [← rest, (takeWhile_gap second).2] at titled
  have title := trimEnd_title first
  rw [← titled, trimEnd_title second] at title
  rw [← title] at titled
  exact Headline.ext marks.1.symm gap.symm title.symm (List.append_cancel_left titled).symm

/-- A headline has its title. -/
theorem title?_line : title? headline.line = some headline.title := by
  obtain ⟨marks, rest⟩ := takeWhile_line headline
  obtain ⟨first, others, split⟩ := List.exists_cons_of_ne_nil headline.apart
  have blank : (headline.gap ++ (headline.title ++ headline.tail)).head?.any isBlank = true := by
    rw [split, List.cons_append, List.head?_cons]
    exact headline.gap_blank first (split ▸ List.mem_cons_self)
  unfold title?
  simp only [marks, rest, List.length_replicate, headline.few, blank, (takeWhile_gap headline).2,
    trimEnd_title, List.isEmpty_iff, headline.inhabited, and_self, ↓reduceIte]

end Headline

theorem isBlank_head?_dropWhile (text : List Char) :
    ∀ c ∈ (text.dropWhile isBlank).head?, isBlank c = false := by
  intro c first
  have visible := List.head?_dropWhile_not isBlank text
  rwa [first] at visible

/-- What blanks and a title leave of a line behind its marks are blanks. -/
theorem exists_headline {line : List Char} {marks : Nat} {rest : List Char}
    (few : 1 ≤ marks ∧ marks ≤ 6) (split : line = List.replicate marks '#' ++ rest)
    (blank : rest.head?.any isBlank = true) (inhabited : trimEnd (rest.dropWhile isBlank) ≠ []) :
    ∃ headline : Headline,
      headline.line = line ∧ headline.title = trimEnd (rest.dropWhile isBlank) := by
  let titled := rest.dropWhile isBlank
  have ends : trimEnd titled ++ titled.rtakeWhile isBlank = titled :=
    List.rdropWhile_append_rtakeWhile
  have apart : rest.takeWhile isBlank ≠ [] := by
    cases rest with
    | nil => cases blank
    | cons first others =>
      have gap : isBlank first = true := blank
      simp [gap]
  have start : ∀ c ∈ (trimEnd titled).head?, isBlank c = false := by
    intro c first
    refine isBlank_head?_dropWhile rest c ?_
    have whole : (trimEnd titled ++ titled.rtakeWhile isBlank).head? = (trimEnd titled).head? :=
      List.head?_append_of_ne_nil (trimEnd titled) inhabited
    rw [ends] at whole
    exact whole.trans first
  refine ⟨⟨marks, rest.takeWhile isBlank, trimEnd titled, titled.rtakeWhile isBlank, few, apart,
    fun _ => List.mem_takeWhile_imp, fun _ => List.mem_rtakeWhile_imp, inhabited, start,
    isBlank_getLast?_trimEnd titled⟩, ?_, rfl⟩
  rw [Headline.line, ends, List.takeWhile_append_dropWhile, split]

/-- A line has a title exactly if it is written as a heading with that title. -/
theorem title?_eq_some_iff {line title : List Char} :
    title? line = some title ↔
      ∃ headline : Headline, headline.line = line ∧ headline.title = title := by
  constructor
  · intro found
    have marks : line.takeWhile (· == '#') =
        List.replicate (line.takeWhile (· == '#')).length '#' :=
      List.eq_replicate_iff.mpr ⟨rfl, fun c inside => by simpa using List.mem_takeWhile_imp inside⟩
    have split : line = List.replicate (line.takeWhile (· == '#')).length '#' ++
        line.dropWhile (· == '#') := by
      rw [← marks, List.takeWhile_append_dropWhile]
    unfold title? at found
    simp only [Option.ite_none_right_eq_some, Option.ite_none_left_eq_some, Option.some.injEq,
      List.isEmpty_iff] at found
    obtain ⟨⟨least, most, blank⟩, inhabited, rfl⟩ := found
    exact exists_headline ⟨least, most⟩ split blank inhabited
  · rintro ⟨headline, rfl, rfl⟩
    exact headline.title?_line

/-- The titles of those among some lines that are headings, in order and with repeats. -/
inductive TitlesOf : List (List Char) → List String → Prop
  | nil : TitlesOf [] []
  | heading (headline : Headline) {lines : List (List Char)} {titles : List String}
      (later : TitlesOf lines titles) :
      TitlesOf (headline.line :: lines) (String.ofList headline.title :: titles)
  | other {line : List Char} {lines : List (List Char)} {titles : List String}
      (none : ∀ headline : Headline, headline.line ≠ line) (later : TitlesOf lines titles) :
      TitlesOf (line :: lines) titles

/-- The titles of some lines are those of the lines that have one, in order. -/
theorem titlesOf_iff {lines : List (List Char)} {titles : List String} :
    TitlesOf lines titles ↔ titles = (lines.filterMap title?).map String.ofList := by
  constructor
  · intro given
    induction given with
    | nil => rfl
    | heading headline _ ih =>
      rw [List.filterMap_cons_some headline.title?_line, List.map_cons, ih]
    | other none _ ih =>
      rw [List.filterMap_cons_none, ih]
      refine Option.eq_none_iff_forall_ne_some.mpr fun title found => ?_
      obtain ⟨headline, same, _⟩ := title?_eq_some_iff.mp found
      exact none headline same
  · rintro rfl
    induction lines with
    | nil => exact .nil
    | cons line lines ih =>
      cases found : title? line with
      | none =>
        rw [List.filterMap_cons_none found]
        refine .other (fun headline same => ?_) ih
        rw [← same, headline.title?_line] at found
        cases found
      | some title =>
        obtain ⟨headline, rfl, rfl⟩ := title?_eq_some_iff.mp found
        rw [List.filterMap_cons_some found, List.map_cons]
        exact .heading headline ih

/-- What is extracted as a heading is a title. -/
theorem isTitle_of_mem {title text : String} (member : title ∈ ofText text) : IsTitle title := by
  obtain ⟨characters, listed, rfl⟩ := List.mem_map.mp member
  rw [titles_eq] at listed
  obtain ⟨line, cut, found⟩ := List.mem_filterMap.mp listed
  obtain ⟨headline, rfl, rfl⟩ := title?_eq_some_iff.mp found
  have clean := newline_notMem_of_mem_segments cut
  refine ⟨?_, (oneLine_ofList _).mpr fun inside => clean ?_, ?_, ?_⟩
  · simpa [← String.toList_inj] using headline.inhabited
  · exact List.mem_append_right _ (List.mem_append_right _ (List.mem_append_left _ inside))
  · simpa using headline.start
  · simpa using headline.stop

/-- **The grammar of headings.** The headings of a text are, in order and with repeats, the titles of
those of its lines that are one to six marks, blanks, a title and perhaps more blanks. A line is so
in one way at most. So the texts that can be headings are those that stay on a line, are not empty
and have no blank at an end. -/
theorem ofText_exact :
    (∀ (text : String) (titles : List String), titles = ofText text ↔
      ∃ lines, CutInto text.toList lines ∧ TitlesOf lines titles) ∧
    (∀ first second : Headline, first.line = second.line → first = second) ∧
    ∀ title : String, (∃ text, title ∈ ofText text) ↔ IsTitle title := by
  refine ⟨fun text titles => ?_, fun _ _ same => Headline.line_injective same, fun title => ?_⟩
  · simp only [cutInto_iff, exists_eq_left, titlesOf_iff]
    rfl
  · constructor
    · rintro ⟨text, member⟩
      exact isTitle_of_mem member
    · intro valid
      refine ⟨"# " ++ title ++ "", ?_⟩
      rw [ofText_heading valid (.inl rfl)]
      exact List.mem_singleton_self title

end Heading

end ExerciseAudit
