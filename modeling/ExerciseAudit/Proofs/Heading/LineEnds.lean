import ExerciseAudit.Proofs.Heading.Grammar
import Mathlib.Data.List.Forall2

/-!
# How lines end

Two texts have the same lines up to their ends if what stands between their line feeds is the same
once the blanks at its end are gone (`Text.SameLines`). Carriage returns in front of line feeds make
no other difference (`Text.sameLines_withReturns`), and neither do blanks at the ends of lines
(`Text.sameLines_of_blanks`). Texts with the same lines have the same headings
(`Heading.ofText_eq_of_sameLines`).
-/

namespace ExerciseAudit

namespace Text

/-- Two texts have as many line feeds, and what stands between these is the same up to blanks at its
end. -/
def SameLines (text other : List Char) : Prop :=
  List.Forall₂ (fun first second => trimEnd first = trimEnd second) (segments text) (segments other)

/-- A text with a carriage return in front of each line feed. -/
def withReturns (text : List Char) : List Char :=
  text.flatMap fun c => if c = '\n' then ['\r', '\n'] else [c]

variable {text other : List Char}

theorem SameLines.refl (text : List Char) : SameLines text text :=
  List.forall₂_same.mpr fun _ _ => rfl

theorem SameLines.symm (same : SameLines text other) : SameLines other text :=
  List.Forall₂.imp (fun _ _ => Eq.symm) same.flip

/-- Blanks that are gone from the end of a part of a text are gone from the end of the text. -/
theorem trimEnd_append_trimEnd (front text : List Char) :
    trimEnd (front ++ trimEnd text) = trimEnd (front ++ text) := by
  have split : trimEnd text ++ text.rtakeWhile isBlank = text := List.rdropWhile_append_rtakeWhile
  have blank : ∀ c ∈ text.rtakeWhile isBlank, isBlank c = true :=
    fun _ => List.mem_rtakeWhile_imp
  calc trimEnd (front ++ trimEnd text)
      = trimEnd (front ++ trimEnd text ++ text.rtakeWhile isBlank) :=
        (trimEnd_append blank _).symm
    _ = trimEnd (front ++ text) := by rw [List.append_assoc, split]

theorem trimEnd_cons_eq {first second : List Char} (c : Char)
    (same : trimEnd first = trimEnd second) :
    trimEnd (c :: first) = trimEnd (c :: second) := by
  have front := trimEnd_append_trimEnd [c] first
  rw [same, trimEnd_append_trimEnd] at front
  exact front.symm

theorem trimEnd_of_blank {blanks : List Char} (blank : ∀ c ∈ blanks, isBlank c = true) :
    trimEnd blanks = [] := by
  simpa using trimEnd_append blank []

/-- A character in front of two texts stands in front of their first lines. -/
theorem SameLines.cons (c : Char) (same : SameLines text other) :
    SameLines (c :: text) (c :: other) := by
  obtain ⟨first, others, cut⟩ := List.exists_cons_of_ne_nil (segments_ne_nil text)
  obtain ⟨first', others', cut'⟩ := List.exists_cons_of_ne_nil (segments_ne_nil other)
  unfold SameLines at same ⊢
  by_cases feed : c = '\n'
  · simp only [segments, feed, ↓reduceIte]
    exact .cons rfl same
  · rw [cut, cut'] at same
    cases same with
    | cons here later =>
      rw [segments_cons feed cut, segments_cons feed cut']
      exact .cons (trimEnd_cons_eq c here) later

/-- What has the same lines stays so with a text put before it. -/
theorem sameLines_append (front : List Char) (same : SameLines text other) :
    SameLines (front ++ text) (front ++ other) := by
  induction front with
  | nil => exact same
  | cons c rest ih => exact ih.cons c

/-- Blanks that stay on their line make no difference at its end. -/
theorem sameLines_of_blanks {blanks rest : List Char} (front : List Char)
    (blank : ∀ c ∈ blanks, isBlank c = true) (clean : '\n' ∉ blanks)
    (ends : rest = [] ∨ rest.head? = some '\n') :
    SameLines (front ++ rest) (front ++ (blanks ++ rest)) := by
  apply sameLines_append
  have vacant : trimEnd [] = trimEnd blanks := (trimEnd_of_blank blank).symm
  unfold SameLines
  rcases ends with rfl | feed
  · rw [List.append_nil, segments_of_notMem clean]
    exact .cons vacant .nil
  · obtain ⟨later, rfl⟩ := List.head?_eq_some_iff.mp feed
    rw [segments_append_newline clean]
    exact .cons vacant (SameLines.refl later)

/-- Line feeds with carriage returns in front of them end the same lines. -/
theorem sameLines_withReturns (text : List Char) : SameLines text (withReturns text) := by
  induction text with
  | nil => exact SameLines.refl []
  | cons c rest ih =>
    by_cases feed : c = '\n'
    · have blank : ∀ c ∈ ['\r'], isBlank c = true := List.forall_mem_singleton.mpr (by decide)
      have clean : '\n' ∉ ['\r'] := by decide
      subst feed
      have cut : segments (withReturns ('\n' :: rest)) = ['\r'] :: segments (withReturns rest) :=
        segments_append_newline clean (withReturns rest)
      unfold SameLines
      rw [cut]
      exact .cons (trimEnd_of_blank blank).symm ih
    · have kept : withReturns (c :: rest) = c :: withReturns rest := by
        simp [withReturns, feed]
      rw [kept]
      exact ih.cons c

end Text

namespace Heading

open Text

/-- Lines that are trimmed to the same have the same titles. -/
theorem filterMap_title?_eq {parts others : List (List Char)}
    (same : List.Forall₂ (fun first second => trimEnd first = trimEnd second) parts others) :
    parts.filterMap title? = others.filterMap title? := by
  induction same with
  | nil => rfl
  | @cons first second _ _ here _ ih =>
    have title : title? first = title? second := by
      rw [← title?_trimEnd, here, title?_trimEnd]
    rw [List.filterMap_cons, List.filterMap_cons, title, ih]

/-- Texts with the same lines up to their ends have the same headings. -/
theorem ofText_eq_of_sameLines {text other : String}
    (same : SameLines text.toList other.toList) : ofText text = ofText other := by
  rw [ofText, ofText, titles_eq, titles_eq, filterMap_title?_eq same]

end Heading

end ExerciseAudit
