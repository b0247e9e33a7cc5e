import ExerciseAudit.Proofs.Audit.Scope
import ExerciseAudit.Proofs.Run.Settings

/-!
# The two modes agree

A report is printed for people or as one JSON document. Both ways end with the same exit code, and
the document says what the lines for people say (`Outcome.modes_agree`). Which mode is in force, and
what selects it, is no matter of the exit code, and neither is what the configuration files contain
as long as they can be loaded and the audit does not read them.
-/

namespace ExerciseAudit

namespace Json.Value

/-- What a record holds under a name that just one of its members has. -/
def at? (name : String) : Value → Option Value
  | .object members =>
    match membersOf name members with
    | [value] => some value
    | _ => none
  | _ => none

/-- The text that a string holds. -/
def text? : Value → Option String
  | .string text => some text
  | _ => none

/-- The messages of the violations that a printed document lists. -/
def messages? (document : Value) : Option (List String) :=
  match document.at? "violations" with
  | some (.array items) => items.mapM fun item => (item.at? "message").bind text?
  | _ => none

end Json.Value

namespace Report

variable (report : Report) (root : Path)

theorem at?_ok : (report.document root).at? "ok" = some (.bool report.isOk) := by
  simp [document, Json.Value.at?, membersOf]

theorem errors_document : ((report.document root).at? "summary").bind (·.at? "errors") =
    some (.ofNat report.summary.errors) := by
  simp [document, Json.Value.at?, membersOf, Summary.toJson]

theorem at?_message (violation : Violation) :
    (item root violation).at? "message" = some (.string violation.message) := by
  cases violation <;> simp [item, Violation.members, Json.Value.at?, membersOf]

/-- The messages in the document are those of the report. -/
theorem messages?_document : (report.document root).messages? = some report.messages := by
  have violations : (report.document root).at? "violations" =
      some (.array (report.violations.map (item root))) := by
    simp [document, Json.Value.at?, membersOf]
  have each (violations : List Violation) :
      (violations.map (item root)).mapM (fun item => (item.at? "message").bind Json.Value.text?) =
        some (violations.map Violation.message) := by
    induction violations with
    | nil => rfl
    | cons violation rest ih =>
      rw [List.map_cons, List.mapM_cons, at?_message, ih]
      rfl
  rw [Json.Value.messages?, violations]
  exact each report.violations

end Report

namespace Audit

/-- A run counts the violations that it reports. -/
theorem errors_run (tree : FileTree) (root : Path) :
    (run tree root).summary.errors = (run tree root).violations.length := by
  unfold run
  split <;> rfl

end Audit

namespace Outcome

variable {tree other : FileTree} {root : Path}

/-- The outcome for people and that in JSON tell the same of a report: they end with the same code,
which says whether there are violations, and the document says so too, with the number of the
violations and the messages that are the lines for people. -/
structure Concur (report : Report) (document : Json.Value) (human json : Outcome) : Prop where
  code : human.exitCode = json.exitCode
  success : json.exitCode = 0 ↔ report.violations = []
  failure : json.exitCode = 1 ↔ report.violations ≠ []
  printed : json.output = document.pretty ++ "\n"
  silent : ∀ noColor, json.errorOutput noColor = ""
  ok : document.at? "ok" = some (.bool (json.exitCode = 0))
  errors : (document.at? "summary").bind (·.at? "errors") = some (.ofNat report.violations.length)
  lines : ∃ messages, document.messages? = some messages ∧
    (json.exitCode = 1 → human.output = String.join (messages.map (· ++ "\n")))
  single : json.exitCode = 0 → human.output = successMessage ++ "\n"

/-- A run succeeds exactly where nothing is reported. -/
theorem reportCode_eq_zero_iff (report : Report) :
    reportCode report = 0 ↔ report.violations = [] := by
  simp [reportCode, Report.isOk]

/-- A run fails with one exactly where something is reported. -/
theorem reportCode_eq_one_iff (report : Report) :
    reportCode report = 1 ↔ report.violations ≠ [] := by
  simp [reportCode, Report.isOk]

/-- Messages are written one behind the other, each with a line feed. -/
theorem humanOutput_of_ne_nil {report : Report} (wrong : report.violations ≠ []) :
    humanOutput report = String.join (report.messages.map (· ++ "\n")) := by
  simp [humanOutput, Report.isOk, wrong]

/-- One report is told alike in both modes. -/
theorem concur_ofReport (tree : FileTree) (root : Path) (source : Option Path) :
    Concur (Audit.run tree root) ((Audit.run tree root).document root)
      (ofReport ⟨root, .human, source⟩ (Audit.run tree root))
      (ofReport ⟨root, .json, source⟩ (Audit.run tree root)) where
  code := rfl
  success := reportCode_eq_zero_iff _
  failure := reportCode_eq_one_iff _
  printed := rfl
  silent _ := rfl
  ok := by
    rw [Report.at?_ok]
    simp [ofReport, reportCode]
  errors := by rw [Report.errors_document, Audit.errors_run]
  lines := by
    refine ⟨_, Report.messages?_document _ _, fun failed => ?_⟩
    exact humanOutput_of_ne_nil ((reportCode_eq_one_iff _).mp failed)
  single succeeded := by
    have none := (reportCode_eq_zero_iff _).mp succeeded
    simp [ofReport, humanOutput, Report.isOk, none]

theorem exitCode_ofReport (settings : Config.Effective) (report : Report) :
    (ofReport settings report).exitCode = reportCode report := by
  unfold ofReport
  split <;> rfl

/-- **The modes agree.** Two runs on a root that differ in the mode asked for both end with code 2
and no results if the configuration cannot be loaded, and otherwise tell the same of the report on
the root. If it can be loaded, the exit code does not depend on what selects the mode: on the command
line, or on the content of configuration files that the audit does not read. All this holds however
configuration files are decoded. -/
theorem modes_agree (decode : Config.Decoder) (tree : FileTree) (root : Path) :
    (∀ arguments : OutputMode → List String,
      (∀ mode, CommandLine.Asks (arguments mode) root (some mode)) →
      (∀ error, Config.load decode tree root = .error error → ∀ mode,
        (run tree (arguments mode) decode).exitCode = 2 ∧
          (run tree (arguments mode) decode).output = "") ∧
      ∀ found, Config.load decode tree root = .ok found →
        Concur (Audit.run tree root) ((Audit.run tree root).document root)
          (run tree (arguments .human) decode) (run tree (arguments .json) decode)) ∧
    ∀ other : FileTree,
      FileTree.SameBut (fun location => Config.StandsAt tree root location ∧
        ¬ Audit.Consulted tree root location) tree other →
      ∀ first second output output' found found',
        CommandLine.Asks first root output → CommandLine.Asks second root output' →
        Config.load decode tree root = .ok found →
        Config.load decode other root = .ok found' →
          (run tree first decode).exitCode = (run other second decode).exitCode := by
  refine ⟨fun arguments asks => ⟨fun error failed mode => ?_, fun found loaded => ?_⟩, ?_⟩
  · rw [run_of_load_error (asks mode) failed]
    exact ⟨rfl, rfl⟩
  · rw [run_of_load (asks .human) loaded, run_of_load (asks .json) loaded]
    exact concur_ofReport tree root (found.map Prod.fst)
  · intro other same first second output output' found found' asks asks' loaded loaded'
    have reports : Audit.run tree root = Audit.run other root :=
      Audit.run_eq_of_sameBut same fun _ differs => differs.2
    rw [run_of_load asks loaded, run_of_load asks' loaded', exitCode_ofReport, exitCode_ofReport,
      reports]

/-- The same tree as another, with other content in its configuration file. -/
def reconfiguredTree : FileTree :=
  Audit.widerTree.insert (["w", "exverify.toml"].map (Utf8.encode ·.toList))
    (.file (Utf8.encode "output = \"human\"".toList))

theorem sameBut_reconfiguredTree :
    FileTree.SameBut (fun location => Config.StandsAt Audit.widerTree (.ofString ".") location ∧
      ¬ Audit.Consulted Audit.widerTree (.ofString ".") location)
      Audit.widerTree reconfiguredTree := by
  have file : Audit.widerTree.lookup (["w", "exverify.toml"].map (Utf8.encode ·.toList)) =
      some (.file (Utf8.encode "output = \"json\"".toList)) := by decide +kernel
  have stands : Config.StandsAt Audit.widerTree (.ofString ".")
      (["w", "exverify.toml"].map (Utf8.encode ·.toList)) :=
    ⟨(.ofString "./exverify.toml", .toml), by decide +kernel, by decide +kernel⟩
  refine (FileTree.sameBut_insert file).mono ?_
  rintro _ rfl
  exact ⟨stands, fun consulted =>
    absurd (Audit.consulted_widerTree consulted) (by decide +kernel)⟩

/-- Settings that ask for one mode, and settings that ask for the other. -/
theorem modes_agree_widerTree :
    Config.load (Config.ofText .standIn) Audit.widerTree (.ofString ".") =
      .ok (some (.ofString "./exverify.toml", ⟨some .json⟩)) ∧
    Config.load (Config.ofText .standIn) reconfiguredTree (.ofString ".") =
      .ok (some (.ofString "./exverify.toml", ⟨some .human⟩)) ∧
    Concur (Audit.run Audit.widerTree (.ofString "."))
      ((Audit.run Audit.widerTree (.ofString ".")).document (.ofString "."))
      (run Audit.widerTree ["--root=" ++ ".", "--output=" ++ OutputMode.human.name])
      (run Audit.widerTree ["--root=" ++ ".", "--output=" ++ OutputMode.json.name]) ∧
    (run Audit.widerTree ["--root=" ++ ".", "--output=" ++ OutputMode.human.name]).exitCode =
      (run reconfiguredTree []).exitCode := by
  have loaded : Config.load (Config.ofText .standIn) Audit.widerTree (.ofString ".") =
      .ok (some (.ofString "./exverify.toml", ⟨some .json⟩)) := by decide +kernel
  have reloaded : Config.load (Config.ofText .standIn) reconfiguredTree (.ofString ".") =
      .ok (some (.ofString "./exverify.toml", ⟨some .human⟩)) := by decide +kernel
  have asks (mode : OutputMode) := @CommandLine.asks_root "." (by decide) mode
  have silent : CommandLine.Asks [] (.ofString ".") none := ⟨none, rfl, rfl⟩
  obtain ⟨agree, same⟩ := modes_agree (Config.ofText .standIn) Audit.widerTree (.ofString ".")
  exact ⟨loaded, reloaded, (agree _ asks).2 _ loaded,
    same reconfiguredTree sameBut_reconfiguredTree _ _ _ _ _ _ (asks .human) silent loaded reloaded⟩

end Outcome

end ExerciseAudit
