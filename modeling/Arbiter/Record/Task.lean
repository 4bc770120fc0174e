import Arbiter.Similarity.Codec

/-! Plagiarism tasks and their findings. -/

namespace Arbiter

structure PlagiarismTask where
  id : Int64
  submissionId : Int64
  problemId : Int64
  /-- The score from which on a submission counts as copied. -/
  threshold : Float
  completed : Bool
  result : Bool
  /-- The best scores, highest first. -/
  scores : List Float
  /-- The submissions with these scores. -/
  similarIds : List Int64
  /-- The report on the most similar submission. -/
  report : Option Similarity.Report

/-- A task on which no work has been done. -/
def PlagiarismTask.fresh (id submissionId problemId : Int64) (threshold : Float) :
    PlagiarismTask :=
  ⟨id, submissionId, problemId, threshold, false, false, [], [], none⟩

/-- What a task found. -/
structure PlagiarismOutcome where
  result : Bool
  scores : List Float
  similarIds : List Int64
  report : Option Similarity.Report

/-- The findings where there was nothing to compare. -/
def PlagiarismOutcome.none : PlagiarismOutcome := ⟨false, [], [], Option.none⟩

namespace PlagiarismTask

/-- The task as JSON, with scores written by `number`. -/
def encode (number : Float → Json) (t : PlagiarismTask) : Json :=
  .object [
    ("id", .ofInt t.id.toInt), ("submission_id", .ofInt t.submissionId.toInt),
    ("problem_id", .ofInt t.problemId.toInt), ("threshold", number t.threshold),
    ("completed", .bool t.completed), ("result", .bool t.result),
    ("sim_list", .ofList number t.scores),
    ("sim_submission_id_list", .ofList (fun i => .ofInt i.toInt) t.similarIds),
    ("sim_abstract", .ofOption (Similarity.Report.encode number) t.report)]

def decode? (j : Json) : Option PlagiarismTask := do
  let fs ← j.fieldsOf? ["id", "submission_id", "problem_id", "threshold", "completed", "result",
    "sim_list", "sim_submission_id_list", "sim_abstract"]
  return {
    id := ← fs.required "id" Json.toInt64?
    submissionId := ← fs.required "submission_id" Json.toInt64?
    problemId := ← fs.required "problem_id" Json.toInt64?
    threshold := ← fs.required "threshold" Json.toFloat?
    completed := ← fs.withDefault "completed" Json.toBool? false
    result := ← fs.withDefault "result" Json.toBool? false
    scores := ← fs.withDefault "sim_list" (Json.toList? Json.toFloat?) []
    similarIds := ← fs.withDefault "sim_submission_id_list" (Json.toList? Json.toInt64?) []
    report := ← fs.withDefault "sim_abstract" (Json.toOption? Similarity.Report.decode?) none }

end PlagiarismTask

def PlagiarismOutcome.decode? (j : Json) : Option PlagiarismOutcome := do
  let fs ← j.fieldsOf? ["result", "sim_list", "sim_submission_id_list", "sim_abstract"]
  return {
    result := ← fs.required "result" Json.toBool?
    scores := ← fs.required "sim_list" (Json.toList? Json.toFloat?)
    similarIds := ← fs.required "sim_submission_id_list" (Json.toList? Json.toInt64?)
    report := ← fs.nullable "sim_abstract" Similarity.Report.decode? }

end Arbiter
