import ExerciseAudit.Proofs.Json.Printing
import ExerciseAudit.Proofs.Text.Utf8
import ExerciseAudit.Run

/-!
# The printed report

A run in JSON mode prints one document and a line feed, and a reader gets the document back
(`Outcome.document_read_back`). The document tells all that the report holds: two reports that give
the same document are the same (`Report.eq_of_document`), although manifests are only shown relative
to a root, since each message starts with the path as it is.
-/

namespace ExerciseAudit

open Json (Value Datum)
open Json.Datum (Rearranged valuesOf)

/-! ## What is printed is read back -/

namespace Json.Value

/-- No object repeats a name, at any depth. -/
inductive Distinct : Value → Prop
  | null : Distinct null
  | bool (value : Bool) : Distinct (bool value)
  | number (value : Number) : Distinct (number value)
  | string (text : String) : Distinct (string text)
  | array {items : List Value} (each : ∀ item ∈ items, item.Distinct) : Distinct (array items)
  | object {members : List (String × Value)} (names : (members.map (·.1)).Nodup)
      (each : ∀ member ∈ members, member.2.Distinct) : Distinct (object members)

theorem integral_ofNat {n depth : Nat} (fits : n < 2 ^ 64) : (ofNat n).Integral depth := by
  have word : fitsWord 64 n = true := by
    have whole : powerOfTwo 64 = 2 ^ 64 := rfl
    simp only [fitsWord, decide_eq_true_eq, whole]
    omega
  cases depth <;> exact word

theorem integral_string (text : String) {depth : Nat} : (string text).Integral depth := by
  cases depth <;> trivial

end Json.Value

/-- The numbers in the record of a violation: the place of a fault. -/
def Violation.numbers : Violation → List Nat
  | invalidManifest _ _ line column => [line, column]
  | _ => []

/-- The numbers of a report are words of 64 bits. -/
structure Report.Counted (report : Report) : Prop where
  errors : report.summary.errors < 2 ^ 64
  manifests : report.summary.manifests < 2 ^ 64
  documents : report.summary.documents < 2 ^ 64
  places : ∀ violation ∈ report.violations, ∀ n ∈ violation.numbers, n < 2 ^ 64

namespace Report

variable {report other : Report} {root base : Path}

/-- A violation's record holds texts and numbers. -/
theorem text_or_number_of_mem {violation : Violation} {shown : Path → String} :
    ∀ member ∈ violation.members shown, (∃ text, member.2 = .string text) ∨
      ∃ n ∈ violation.numbers, member.2 = .ofNat n := by
  cases violation <;> simp [Violation.members, Violation.numbers, Value.ofNat]

/-- The members of a violation's record in the printed form. -/
def record (root : Path) (violation : Violation) : List (String × Value) :=
  violation.members (·.shownFrom root) ++ [("message", .string violation.message)]

/-- No member of an item is written twice. -/
theorem nodup_names (violation : Violation) : ((record root violation).map (·.1)).Nodup := by
  cases violation <;> simp [record, Violation.members]

/-- An item's numbers are whole and within range if the violation's are. -/
theorem item_integral {violation : Violation} {depth : Nat}
    (counted : ∀ n ∈ violation.numbers, n < 2 ^ 64) :
    (item root violation).Integral (depth + 1) := by
  rw [item, Value.Integral, List.forall_mem_append, List.forall_mem_singleton]
  refine ⟨fun member inside => ?_, Value.integral_string _⟩
  rcases text_or_number_of_mem member inside with ⟨text, held⟩ | ⟨n, listed, held⟩
  · rw [held]
    exact Value.integral_string text
  · rw [held]
    exact Value.integral_ofNat (counted n listed)

theorem item_distinct (violation : Violation) : (item root violation).Distinct := by
  refine .object (nodup_names violation) ?_
  rw [List.forall_mem_append, List.forall_mem_singleton]
  refine ⟨fun member inside => ?_, .string _⟩
  rcases text_or_number_of_mem member inside with ⟨text, held⟩ | ⟨n, _, held⟩
  · rw [held]
    exact .string text
  · rw [held]
    exact .number _

/-- A document's numbers are whole and within range if the report counts within range. -/
theorem document_integral (counted : report.Counted) {depth : Nat} :
    (report.document root).Integral (depth + 3) := by
  simp only [document, Summary.toJson, Value.Integral, List.forall_mem_cons, List.forall_mem_map]
  refine ⟨trivial, fun violation inside => ?_, ⟨?_, ?_, ?_, by simp⟩, by simp⟩
  · exact item_integral (counted.places violation inside)
  · exact Value.integral_ofNat counted.errors
  · exact Value.integral_ofNat counted.manifests
  · exact Value.integral_ofNat counted.documents

theorem document_distinct (report : Report) (root : Path) :
    (report.document root).Distinct := by
  refine .object (by simp) ?_
  simp only [Summary.toJson, List.forall_mem_cons]
  refine ⟨.bool _, .array ?_, .object (by simp) ?_, by simp⟩
  · rw [List.forall_mem_map]
    exact fun violation _ => item_distinct violation
  · simp only [List.forall_mem_cons]
    exact ⟨.number _, .number _, .number _, by simp⟩

end Report

/-- **What is printed in JSON mode is read back.** A run in JSON mode prints a writing of the
report's document and a line feed, for any names, reasons and headings. No object in the document
repeats a name, the writing means just what the document holds, and a reader makes of it the
document, down to the order of members and of violations. -/
theorem Outcome.document_read_back {report : Report} (counted : report.Counted) (root : Path)
    (source : Option Path) :
    ∃ writing : Json.Writing,
      (ofReport ⟨root, .json, source⟩ report).output = String.ofList (writing.text ++ ['\n']) ∧
      (report.document root).Distinct ∧
      writing.datum? = some (report.document root).datum ∧
      Value.parse (ofReport ⟨root, .json, source⟩ report).output = .ok (report.document root) := by
  obtain ⟨writing, text, read, exact⟩ :=
    Value.exists_printed (Report.document_integral counted : Value.Integral Json.maxDepth _) 0
  have printed : (ofReport ⟨root, .json, source⟩ report).output =
      String.ofList (writing.text ++ ['\n']) := by
    rw [text, String.ofList_append]
    rfl
  refine ⟨writing, printed, report.document_distinct root, exact, ?_⟩
  rw [printed]
  exact Value.parse_of_value? [] [.lineFeed] read

/-- A report with a name that is no text, with all that is escaped in a string, and with the greatest
of numbers. -/
def wildReport : Report where
  violations := [
    .missingBase ⟨[0xFF, 0x2F, 0x61]⟩,
    .invalidManifest (.ofString "./a\\b") "\"\\\n\r\t\x08\x0c\x00\x1f\x7f é 𝄞" (2 ^ 64 - 1)
      (2 ^ 64 - 1),
    .missingHeading (.ofString "m") "" "\\u0000" .fixture]
  summary := ⟨2 ^ 64 - 1, 0, 10⟩

theorem Outcome.document_read_back_wildReport :
    wildReport.Counted ∧
    Value.parse (ofReport ⟨.ofString "", .json, none⟩ wildReport).output =
      .ok (wildReport.document (.ofString "")) := by
  have counted : wildReport.Counted := ⟨by decide, by decide, by decide, by decide⟩
  obtain ⟨_, _, _, _, read⟩ := document_read_back counted (.ofString "") none
  exact ⟨counted, read⟩

/-! ## What is printed tells all -/

namespace Json.Value

/-- What the members of a name hold, in order. -/
def held (name : String) (members : List (String × Value)) : List Value :=
  (members.filter (·.1 = name)).map (·.2)

theorem valuesOf_datum (name : String) (members : List (String × Value)) :
    valuesOf name (members.map fun member => (member.1, member.2.datum)) =
      (held name members).map datum := by
  simp [valuesOf, held, List.filter_map, Function.comp_def]

variable {members others : List (String × Value)}
  (same : (object members).datum.Rearranged (object others).datum) (name : String)
include same

/-- A name that two objects give once holds the same value in both, rearranged. -/
theorem rearranged_of_held {value other : Value} (here : held name members = [value])
    (there : held name others = [other]) : value.datum.Rearranged other.datum := by
  rw [datum, datum] at same
  obtain ⟨found, whole, holds⟩ := same.object_left rfl
  cases whole
  have values := holds name
  rw [valuesOf_datum, valuesOf_datum, here, there] at values
  obtain ⟨value, single, inner⟩ := Datum.rel_singleton_left values
  rw [List.map_singleton, List.singleton_inj] at single
  rwa [single]

theorem text_eq {text spelled : String} (here : held name members = [string text])
    (there : held name others = [string spelled]) : text = spelled := by
  have inner := rearranged_of_held same name here there
  rw [datum, datum] at inner
  have equal := inner.eq_of_scalar (by simp) (by simp)
  cases equal
  rfl

theorem nat_eq {n m : Nat} (here : held name members = [ofNat n])
    (there : held name others = [ofNat m]) : n = m := by
  have inner := rearranged_of_held same name here there
  simp only [datum, ofNat, Number.value] at inner
  have equal := inner.eq_of_scalar (by simp) (by simp)
  simp at equal
  exact equal.symm

end Json.Value

/-- The bytes of a path are the bytes of a text. -/
def Path.Legible (path : Path) : Prop :=
  ∃ text, path = .ofString text

/-- Paths that are text are told apart by how they are shown. -/
theorem Path.eq_of_display_eq {path other : Path} (legible : path.Legible)
    (legible' : other.Legible) (same : path.display = other.display) : path = other := by
  obtain ⟨text, rfl⟩ := legible
  obtain ⟨text', rfl⟩ := legible'
  rw [display_ofString, display_ofString] at same
  rw [same]

namespace Violation

/-- The path with which a message starts: the manifest, or the root if there is no base. -/
def subject : Violation → Path
  | missingBase root => root
  | invalidManifest manifest .. | unreadableManifest manifest _ | missingDoc manifest _
  | missingReference manifest _ | missingFixture manifest _ | missingHeading manifest ..
  | unreadableDocument manifest .. => manifest

/-- The violation without its path. -/
def unplaced : Violation → Violation
  | missingBase _ => missingBase ⟨[]⟩
  | invalidManifest _ reason line column => invalidManifest ⟨[]⟩ reason line column
  | unreadableManifest _ reason => unreadableManifest ⟨[]⟩ reason
  | missingDoc _ path => missingDoc ⟨[]⟩ path
  | missingReference _ path => missingReference ⟨[]⟩ path
  | missingFixture _ path => missingFixture ⟨[]⟩ path
  | missingHeading _ heading path entry => missingHeading ⟨[]⟩ heading path entry
  | unreadableDocument _ path entry reason => unreadableDocument ⟨[]⟩ path entry reason

variable {violation other : Violation}

/-- A violation is what it says and what it says it about. -/
theorem eq_of_unplaced_eq (same : violation.unplaced = other.unplaced)
    (subject : violation.subject = other.subject) : violation = other := by
  cases violation <;> cases other <;> simp_all [unplaced, Violation.subject]

/-- A message starts with what it is about. -/
theorem message_eq_append (violation : Violation) :
    violation.message = violation.subject.display ++ violation.unplaced.message := by
  have empty : Path.display ⟨[]⟩ = "" := rfl
  cases violation <;>
    simp only [message, subject, unplaced, empty, String.empty_append, String.append_assoc]

/-- Behind its path, a message depends on the rest of the violation only; so the message and the rest
give the path. -/
theorem eq_of_message_eq (legible : violation.subject.Legible) (legible' : other.subject.Legible)
    (same : violation.unplaced = other.unplaced) (message : violation.message = other.message) :
    violation = other := by
  rw [message_eq_append violation, message_eq_append other, same, String.append_left_inj] at message
  exact eq_of_unplaced_eq same (Path.eq_of_display_eq legible legible' message)

end Violation

theorem Entry.label_injective : Function.Injective Entry.label := by
  intro entry other same
  cases entry <;> cases other <;> first | rfl | simp [label] at same

namespace Report

variable {root base : Path} {violation other : Violation}

theorem held_kind (root : Path) (violation : Violation) :
    Value.held "kind" (record root violation) = [.string violation.kind] := by
  cases violation <;> rfl

theorem held_message (root : Path) (violation : Violation) :
    Value.held "message" (record root violation) = [.string violation.message] := by
  cases violation <;> rfl

/-- A violation's record holds every field of it but the path. -/
theorem unplaced_eq_of_item (same : (item root violation).datum.Rearranged (item base other).datum) :
    violation.unplaced = other.unplaced := by
  have kind := Value.text_eq same "kind" (held_kind root violation) (held_kind base other)
  have text (name : String) {a b : String} := @Value.text_eq _ _ same name a b
  have nat (name : String) {n m : Nat} := @Value.nat_eq _ _ same name n m
  -- violations of different kinds differ in the tag
  cases violation <;> cases other <;> simp [Violation.kind] at kind
  case missingBase.missingBase => rfl
  case invalidManifest.invalidManifest =>
    rw [Violation.unplaced, Violation.unplaced, text "reason" rfl rfl, nat "line" rfl rfl,
      nat "column" rfl rfl]
  case unreadableManifest.unreadableManifest =>
    rw [Violation.unplaced, Violation.unplaced, text "reason" rfl rfl]
  case missingDoc.missingDoc =>
    rw [Violation.unplaced, Violation.unplaced, text "path" rfl rfl]
  case missingReference.missingReference =>
    rw [Violation.unplaced, Violation.unplaced, text "path" rfl rfl]
  case missingFixture.missingFixture =>
    rw [Violation.unplaced, Violation.unplaced, text "path" rfl rfl]
  case missingHeading.missingHeading =>
    rw [Violation.unplaced, Violation.unplaced, text "heading" rfl rfl, text "path" rfl rfl,
      Entry.label_injective (text "entry" rfl rfl)]
  case unreadableDocument.unreadableDocument =>
    rw [Violation.unplaced, Violation.unplaced, text "path" rfl rfl,
      Entry.label_injective (text "entry" rfl rfl), text "reason" rfl rfl]

/-- Items of violations about legible paths tell the violations apart, whatever the roots. -/
theorem eq_of_item (legible : violation.subject.Legible) (legible' : other.subject.Legible)
    (same : (item root violation).datum.Rearranged (item base other).datum) :
    violation = other := by
  have message := Value.text_eq same "message" (held_message root violation)
    (held_message base other)
  exact Violation.eq_of_message_eq legible legible' (unplaced_eq_of_item same) message

/-- The path of every violation is the path of a text. -/
def Legible (report : Report) : Prop :=
  ∀ violation ∈ report.violations, violation.subject.Legible

/-- **What is printed tells all that was found.** Two reports on manifests whose paths are UTF-8 are
the same if their documents are, for any two roots, and even if the documents only agree up to the
order of members: the same violations in the same order, each with the same fields, and the same
counts. -/
theorem eq_of_document {report other : Report} (legible : report.Legible)
    (legible' : other.Legible)
    (same : (report.document root).datum.Rearranged (other.document base).datum) :
    report = other := by
  have rows := Value.rearranged_of_held same "violations" rfl rfl
  have counts := Value.rearranged_of_held same "summary" rfl rfl
  have violations : report.violations = other.violations := by
    simp only [Value.datum, List.map_map] at rows
    obtain ⟨others, whole, each⟩ := rows.array_left rfl
    cases whole
    rw [List.forall₂_map_left_iff, List.forall₂_map_right_iff] at each
    rw [← List.forall₂_eq_eq_eq]
    exact Json.forall₂_of_mem each fun first inside second inside' =>
      eq_of_item (legible first inside) (legible' second inside')
  have summary : report.summary = other.summary := by
    rw [Summary.mk.injEq]
    exact ⟨Value.nat_eq counts "errors" rfl rfl, Value.nat_eq counts "manifests" rfl rfl,
      Value.nat_eq counts "documents" rfl rfl⟩
  rw [Report.mk.injEq]
  exact ⟨violations, summary⟩

/-- A report on a manifest whose name is no ASCII. -/
def spelledReport (manifest : Path) : Report where
  violations := [.missingHeading manifest "" ": missing doc" .fixture, .missingDoc manifest ""]
  summary := ⟨2, 1, 1⟩

theorem eq_of_document_spelledReport :
    (spelledReport (.ofString "/é")).Legible ∧
    (spelledReport ⟨[0x2F, 0xC3, 0xA9]⟩).Legible ∧
    (spelledReport (.ofString "/é")).document (.ofString "a") =
      (spelledReport ⟨[0x2F, 0xC3, 0xA9]⟩).document (.ofString ".") ∧
    spelledReport (.ofString "/é") = spelledReport ⟨[0x2F, 0xC3, 0xA9]⟩ := by
  have legible {manifest : Path} (spelled : manifest.Legible) :
      (spelledReport manifest).Legible := by
    intro violation inside
    simp only [spelledReport, List.mem_cons, List.not_mem_nil, or_false] at inside
    rcases inside with rfl | rfl <;> exact spelled
  have text := legible ⟨"/é", rfl⟩
  have bytes : (spelledReport ⟨[0x2F, 0xC3, 0xA9]⟩).Legible := legible ⟨"/é", by decide +kernel⟩
  have same : (spelledReport (.ofString "/é")).document (.ofString "a") =
      (spelledReport ⟨[0x2F, 0xC3, 0xA9]⟩).document (.ofString ".") := by
    rfl
  have alike : ((spelledReport (.ofString "/é")).document (.ofString "a")).datum.Rearranged
      ((spelledReport ⟨[0x2F, 0xC3, 0xA9]⟩).document (.ofString ".")).datum := by
    rw [same]
    exact .refl _
  exact ⟨text, bytes, same, eq_of_document text bytes alike⟩

end Report

end ExerciseAudit
