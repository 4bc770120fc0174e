import Arbiter.Json.Decode

/-! Jobs: the work that workers take up. -/

namespace Arbiter

inductive Job
  | judge (submission : Int64)
  /-- Judges again, from scratch. -/
  | rejudge (submission : Int64)
  /-- Evaluates a plagiarism task. -/
  | plagiarism (task : Int64)
  /-- Makes and stores the dependence graph of a submission. -/
  | buildGraph (submission : Int64)
deriving DecidableEq

namespace Job

/-- The kinds of jobs, each with the name of its one field. -/
def kinds : List (String × String × (Int64 → Job)) := [
  ("judge", "submission_id", judge), ("rejudge", "submission_id", rejudge),
  ("plagiarism", "task_id", plagiarism), ("build_pdg", "submission_id", buildGraph)]

def encode : Job → Json
  | judge id => .object [("job_type", .string "judge"), ("submission_id", .ofInt id.toInt)]
  | rejudge id => .object [("job_type", .string "rejudge"), ("submission_id", .ofInt id.toInt)]
  | plagiarism id => .object [("job_type", .string "plagiarism"), ("task_id", .ofInt id.toInt)]
  | buildGraph id => .object [("job_type", .string "build_pdg"), ("submission_id", .ofInt id.toInt)]

/-- How deep the fields of a job may nest. -/
def depthLimit : Nat := 127

/-- A job as a record that names its kind, or as an array that starts with it. The kind may come
last, so that every field is kept until then, unknown ones included. -/
def decode? (j : Json) : Option Job := do
  guard (j.isKept depthLimit)
  let (kind, content) ← match j with
    | .object fields => do
      let fs ← j.fieldsOf? ["job_type"]
      pure (← fs.find? "job_type", Json.object (fields.filter (·.1.text != "job_type")))
    | .array (kind :: items) => some (kind, .array items)
    | _ => none
  let (name, make) ← kinds.lookup (← kind.toString?)
  let fs ← content.fieldsOf? [name]
  return make (← fs.required name Json.toInt64?)

end Job

end Arbiter
