import StyleEngine.Cli.Run

/-!
# `Proofs/Cli/Reports.lean` — the text of a report

A report is made line by line: what could not be done, and below it why, with a number in front
of each cause as soon as there are two. `Failure.ReportedAs` has these texts as they are read, one
for each kind of failure, and knows of no lines and no numbers. The two agree
(`Failure.reportedAs_report`).

Two causes there are only if a document is no JSON, or JSON of another shape. Then the reader of
JSON has the word, twice, and nothing is assumed of what it says: a `JsonWording` is any function
of the text that it refuses.
-/

set_option autoImplicit false

namespace StyleEngine.Cli

/-- The report of a failure, written out. -/
inductive Failure.ReportedAs (wording : JsonWording) : Failure → String → Prop where
  | unreadable (path : String) (reason : ReadFailure) :
      ReportedAs wording (.unreadable path reason)
        ("Error: failed to read '" ++ path ++ "'\n\nCaused by:\n    " ++ reason.message ++ "\n")
  | sheet (fault : Fault) :
      ReportedAs wording (.sheet fault)
        ("Error: failed to parse stylesheet\n\nCaused by:\n    " ++ fault.cause.message ++
          " at line " ++ toString fault.position.line ++ ", column " ++
          toString fault.position.column ++ "\n")
  | defect (text : String) (defect : Defect) :
      ReportedAs wording (.tree text (.defect defect))
        ("Error: failed to load document tree\n\nCaused by:\n    " ++ defect.message ++ "\n")
  /-- What the reader of JSON says stands there twice, as part of a cause and as one. -/
  | json (text : String) (error : Json.ReadError) :
      ReportedAs wording (.tree text (.json error))
        ("Error: failed to load document tree\n\nCaused by:\n    0: invalid node tree JSON: " ++
          wording text ++ "\n    1: " ++ wording text ++ "\n")

namespace Failure

variable {wording : JsonWording} {failure : Failure} {cause behind : String}

theorem context_unreadable (path : String) (reason : ReadFailure) :
    context (.unreadable path reason) = "failed to read '" ++ path ++ "'" :=
  rfl

theorem context_sheet (fault : Fault) : context (.sheet fault) = "failed to parse stylesheet" :=
  rfl

theorem context_tree (text : String) (error : Node.LoadError) :
    context (.tree text error) = "failed to load document tree" :=
  rfl

theorem report_of_one_cause (h : failure.causes wording = [cause]) :
    failure.report wording =
      "Error: " ++ failure.context ++ "\n\nCaused by:\n    " ++ cause ++ "\n" := by
  rw [report, h, causeLines, ← String.toList_inj]
  simp [joinLines, String.toList_append]

theorem causeLines_two (cause behind : String) :
    causeLines [cause, behind] = ["    0: " ++ cause, "    1: " ++ behind] := by
  have hfirst : padLeft 5 (toString 0) ++ ": " = "    0: " := by decide +kernel
  have hsecond : padLeft 5 (toString 1) ++ ": " = "    1: " := by decide +kernel
  rw [← hfirst, ← hsecond]
  rfl

theorem report_of_two_causes (h : failure.causes wording = [cause, behind]) :
    failure.report wording =
      "Error: " ++ failure.context ++ "\n\nCaused by:\n    0: " ++ cause ++ "\n    1: " ++
        behind ++ "\n" := by
  rw [report, h, causeLines_two, ← String.toList_inj]
  simp [joinLines, String.toList_append]

theorem ReportedAs.of_report_eq {text : String} (h : failure.ReportedAs wording text)
    (htext : failure.report wording = text) : failure.ReportedAs wording (failure.report wording) :=
  htext ▸ h

/-- Every report is as it is written out here. -/
theorem reportedAs_report (wording : JsonWording) (failure : Failure) :
    failure.ReportedAs wording (failure.report wording) := by
  cases failure with
  | unreadable path reason =>
    refine .of_report_eq (.unreadable path reason) ?_
    rw [report_of_one_cause rfl, context_unreadable, ← String.toList_inj]
    simp [String.toList_append]
  | sheet fault =>
    refine .of_report_eq (.sheet fault) ?_
    rw [report_of_one_cause rfl, context_sheet, Fault.message, Position.text, ← String.toList_inj]
    simp [String.toList_append, toString]
  | tree text error =>
    cases error with
    | defect defect =>
      refine .of_report_eq (.defect text defect) ?_
      rw [report_of_one_cause rfl, context_tree, ← String.toList_inj]
      simp [String.toList_append]
    | json error =>
      refine .of_report_eq (.json text error) ?_
      rw [report_of_two_causes rfl, context_tree, ← String.toList_inj]
      simp [String.toList_append, toString]

end Failure

end StyleEngine.Cli
