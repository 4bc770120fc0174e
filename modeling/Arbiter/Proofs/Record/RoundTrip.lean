import Arbiter.Proofs.Json.Finite
import Arbiter.Proofs.Json.Variant
import Arbiter.Record.Job
import Arbiter.Record.Language
import Arbiter.Record.Problem
import Arbiter.Record.Submission

/-! Records as JSON. Main statement: every record is decoded from the text of its encoding and from every
text in which the fields of the objects stand in another order and further fields among them. A job has to
keep its fields until it knows its kind, and so is not decoded where a further field holds a value that
cannot be kept. -/

namespace Arbiter

open Json (Decodes decodes_record decodes_string decodes_word decodes_ofNat decodes_ofUInt32
  decodes_ofInt64 decodes_option decodes_list)

section Records

variable {extra : Json → Prop}

/-! Dependence graphs. -/

theorem Dependence.Node.decodes {n : Dependence.Node} (fits : n.id < UInt64.size) :
    Decodes extra Dependence.Node.decode? n.encode n := by
  refine decodes_record rfl (by decide) fun fs holds => ?_
  obtain ⟨id, label, hash⟩ := holds
  simp only [id.required (decodes_ofNat fits), label.required (decodes_string _),
    hash.required (decodes_string _), Option.bind_eq_bind, Option.bind_some, Option.pure_def]

theorem Dependence.EdgeKind.decodes (k : Dependence.EdgeKind) :
    Decodes extra Dependence.EdgeKind.decode? (.string k.name) k :=
  decodes_word (by cases k <;> rfl)

theorem Dependence.Edge.decodes {e : Dependence.Edge} (source_fits : e.source < UInt64.size)
    (target_fits : e.target < UInt64.size) : Decodes extra Dependence.Edge.decode? e.encode e := by
  refine decodes_record rfl (by decide) fun fs holds => ?_
  obtain ⟨source, target, kind⟩ := holds
  simp only [source.required (decodes_ofNat source_fits), target.required (decodes_ofNat target_fits),
    kind.required e.kind.decodes, Option.bind_eq_bind, Option.bind_some, Option.pure_def]

/-- The numbers of a graph fit 64 bits. -/
structure Dependence.Graph.Fits (g : Dependence.Graph) : Prop where
  ids : ∀ n ∈ g.nodes, n.id < UInt64.size
  sources : ∀ e ∈ g.edges, e.source < UInt64.size
  targets : ∀ e ∈ g.edges, e.target < UInt64.size

theorem Dependence.Graph.Fits.decodes {g : Dependence.Graph} (h : g.Fits) :
    Decodes extra Dependence.Graph.decode? g.encode g := by
  refine decodes_record rfl (by decide) fun fs holds => ?_
  obtain ⟨nodes, edges⟩ := holds
  have each_node : Decodes extra (Json.toList? Dependence.Node.decode?)
      (.ofList Dependence.Node.encode g.nodes) g.nodes :=
    decodes_list fun n here => Dependence.Node.decodes (h.ids n here)
  have each_edge : Decodes extra (Json.toList? Dependence.Edge.decode?)
      (.ofList Dependence.Edge.encode g.edges) g.edges :=
    decodes_list fun e here => Dependence.Edge.decodes (h.sources e here) (h.targets e here)
  simp only [nodes.required each_node, edges.required each_edge, Option.bind_eq_bind, Option.bind_some,
    Option.pure_def]

/-! Problems and languages. -/

theorem decodes_stringOption (o : Option String) :
    Decodes extra (Json.toOption? Json.toString?) (.ofOption .string o) o :=
  decodes_option (fun _ _ => nofun) fun s _ => decodes_string s

theorem decodes_uint32Option (o : Option UInt32) :
    Decodes extra (Json.toOption? Json.toUInt32?) (.ofOption (fun n => .ofNat n.toNat) o) o :=
  decodes_option (fun _ _ => nofun) fun n _ => decodes_ofUInt32 n

theorem decodes_int64Option (o : Option Int64) :
    Decodes extra (Json.toOption? Json.toInt64?) (.ofOption (fun i => .ofInt i.toInt) o) o :=
  decodes_option (fun _ _ => nofun) fun i _ => decodes_ofInt64 i

theorem TestCase.decodes (t : TestCase) : Decodes extra TestCase.decode? t.encode t := by
  refine decodes_record rfl (by decide) fun fs holds => ?_
  obtain ⟨input, output⟩ := holds
  simp only [input.required (decodes_string _), output.required (decodes_string _),
    Option.bind_eq_bind, Option.bind_some, Option.pure_def]

theorem JudgeMode.decodes (m : JudgeMode) : Decodes extra JudgeMode.decode? (.string m.name) m :=
  decodes_word (by cases m <;> rfl)

theorem Problem.decodes (p : Problem) : Decodes extra Problem.decode? p.encode p := by
  refine decodes_record rfl (by decide) fun fs holds => ?_
  obtain ⟨id, time, memory, tests, mode, code, language⟩ := holds
  have each_test : Decodes extra (Json.toList? TestCase.decode?)
      (.ofList TestCase.encode p.testcases) p.testcases := decodes_list fun t _ => t.decodes
  simp only [id.required (decodes_ofInt64 _), time.withDefault (decodes_uint32Option _),
    memory.withDefault (decodes_uint32Option _), tests.required each_test,
    mode.withDefault p.judgeMode.decodes, code.withDefault (decodes_stringOption _),
    language.withDefault (decodes_int64Option _), Option.bind_eq_bind, Option.bind_some,
    Option.pure_def]

theorem Language.decodes (l : Language) : Decodes extra Language.decode? l.encode l := by
  refine decodes_record rfl (by decide) fun fs holds => ?_
  obtain ⟨id, name, fileExt, compile, artifact, run, image, time, memory⟩ := holds
  simp only [id.required (decodes_ofInt64 _), name.required (decodes_string _),
    fileExt.required (decodes_string _), compile.withDefault (decodes_stringOption _),
    artifact.withDefault (decodes_stringOption _), run.required (decodes_string _),
    image.required (decodes_string _), time.required (decodes_ofUInt32 _),
    memory.required (decodes_ofUInt32 _), Option.bind_eq_bind, Option.bind_some, Option.pure_def]

/-! Submissions and what they come to. -/

theorem Verdict.decodes (v : Verdict) : Decodes extra Verdict.decode? (.string v.code) v :=
  decodes_word (by cases v <;> rfl)

theorem Status.decodes (s : Status) : Decodes extra Status.decode? (.string s.name) s :=
  decodes_word (by cases s <;> rfl)

theorem TestCaseResult.decodes {r : TestCaseResult} (fits : r.index < UInt64.size) :
    Decodes extra TestCaseResult.decode? r.encode r := by
  refine decodes_record rfl (by decide) fun fs holds => ?_
  obtain ⟨index, verdict, time, memory, points, output, error⟩ := holds
  simp only [index.required (decodes_ofNat fits), verdict.required r.verdict.decodes,
    time.required (decodes_ofUInt32 _), memory.required (decodes_ofUInt32 _),
    points.required (decodes_ofUInt32 _), output.withDefault (decodes_string _),
    error.withDefault (decodes_string _), Option.bind_eq_bind, Option.bind_some, Option.pure_def]

theorem JudgeOutcome.decodes {o : JudgeOutcome} (fits : ∀ r ∈ o.results, r.index < UInt64.size) :
    Decodes extra JudgeOutcome.decode? o.encode o := by
  refine decodes_record rfl (by decide) fun fs holds => ?_
  obtain ⟨status, time, memory, score, results, error⟩ := holds
  have each_result : Decodes extra (Json.toList? TestCaseResult.decode?)
      (.ofList TestCaseResult.encode o.results) o.results :=
    decodes_list fun r here => TestCaseResult.decodes (fits r here)
  simp only [status.required o.status.decodes, time.required (decodes_ofUInt32 _),
    memory.required (decodes_ofUInt32 _), score.required (decodes_ofUInt32 _),
    results.required each_result, error.nullable (decodes_stringOption _), Option.bind_eq_bind,
    Option.bind_some, Option.pure_def]

/-- The numbers of a submission fit 64 bits. -/
structure Submission.Fits (s : Submission) : Prop where
  indices : ∀ r ∈ s.results, r.index < UInt64.size
  graph : ∀ g ∈ s.graph, g.Fits

theorem Submission.Fits.decodes {s : Submission} (h : s.Fits) :
    Decodes extra Submission.decode? s.encode s := by
  refine decodes_record rfl (by decide) fun fs holds => ?_
  obtain ⟨id, code, language, problem, user, status, time, memory, score, results, error, graph⟩ := holds
  have each_result : Decodes extra (Json.toList? TestCaseResult.decode?)
      (.ofList TestCaseResult.encode s.results) s.results :=
    decodes_list fun r here => TestCaseResult.decodes (h.indices r here)
  have optional_graph : Decodes extra (Json.toOption? Dependence.Graph.decode?)
      (.ofOption Dependence.Graph.encode s.graph) s.graph :=
    decodes_option (fun _ _ => nofun) fun g here => (h.graph g here).decodes
  simp only [id.required (decodes_ofInt64 _), code.required (decodes_string _),
    language.required (decodes_ofInt64 _), problem.required (decodes_ofInt64 _),
    user.required (decodes_ofInt64 _), status.withDefault s.status.decodes,
    time.withDefault (decodes_ofUInt32 _), memory.withDefault (decodes_ofUInt32 _),
    score.withDefault (decodes_ofUInt32 _), results.withDefault each_result,
    error.withDefault (decodes_stringOption _), graph.withDefault optional_graph,
    Option.bind_eq_bind, Option.bind_some, Option.pure_def]

/-! Jobs. -/

/-- A job of each kind is the object of its kind and its one field. -/
theorem Job.exists_kind (w : Job) : ∃ kind name make, kinds.lookup kind = some (name, make) ∧
    name ≠ "job_type" ∧ ∃ id, w = make id ∧
      w.encode = .object [("job_type", .string kind), (name, .ofInt id.toInt)] := by
  cases w with
  | judge id => exact ⟨"judge", "submission_id", judge, rfl, by decide, id, rfl, rfl⟩
  | rejudge id => exact ⟨"rejudge", "submission_id", rejudge, rfl, by decide, id, rfl, rfl⟩
  | plagiarism id => exact ⟨"plagiarism", "task_id", plagiarism, rfl, by decide, id, rfl, rfl⟩
  | buildGraph id => exact ⟨"build_pdg", "submission_id", buildGraph, rfl, by decide, id, rfl, rfl⟩

theorem Job.decodes (w : Job) (fit : ∀ j, extra j → j.isKept (depthLimit - 1) = true) :
    Decodes extra Job.decode? w.encode w := by
  obtain ⟨kind, name, make, known, other, id, rfl, written⟩ := w.exists_kind
  rw [written]
  intro j' varies
  have isObject : ∃ fields', j' = .object fields' := by
    cases varies
    exact ⟨_, rfl⟩
  obtain ⟨fields', rfl⟩ := isObject
  -- Only further fields can hold what is not kept.
  have kept : (Json.object fields').isKept depthLimit = true := by
    refine Json.isKept_variant varies (fun f here j value => ?_) fit
    simp only [List.mem_cons, List.not_mem_nil, or_false] at here
    obtain rfl | rfl := here
    · rw [value.string_eq]
      rfl
    · rw [value.number_eq]
      exact Json.isKept_ofInt64 id _
  have apart : "job_type" ≠ name := other.symm
  obtain ⟨fs, found, holds⟩ := Json.fieldsOf?_variant ["job_type"] (by simp [apart]) (by simp) varies
  obtain ⟨_, kind_found, ⟨⟩⟩ := holds ("job_type", .string kind) (.head _)
  -- What is left without the kind is a record of the one field.
  have content := varies.tail (by simpa using other)
  obtain ⟨gs, rest_found, rest_holds⟩ := Json.fieldsOf?_variant [name] (by simp) (by simp) content
  have integer := (rest_holds (name, .ofInt id.toInt) (.head _)).required (decodes_ofInt64 id)
  simp only [Job.decode?, kept, guard, found, kind_found, rest_found, integer, known, Json.toString?,
    if_true, Option.bind_eq_bind, Option.bind_some, Option.pure_def]

end Records

/-! The text of each record. -/

section Texts

open Json (Written written_object written_list written_option)

theorem written_ofNat (n : Nat) : (Json.ofNat n).Written := (Json.Numeral.whole_ofNat n).spelled

theorem written_ofInt (i : Int) : (Json.ofInt i).Written := (Json.Numeral.whole_ofInt i).spelled

theorem Dependence.Graph.written (g : Dependence.Graph) : g.encode.Written := by
  have each_node : ∀ n ∈ g.nodes, n.encode.Written := fun n _ =>
    written_object (by simp [Json.Name.isPrinted]) ⟨written_ofNat _, trivial, trivial⟩
  have each_edge : ∀ e ∈ g.edges, e.encode.Written := fun e _ =>
    written_object (by simp [Json.Name.isPrinted]) ⟨written_ofNat _, written_ofNat _, trivial⟩
  exact written_object (by simp [Json.Name.isPrinted]) ⟨written_list each_node, written_list each_edge⟩

theorem Problem.written (p : Problem) : p.encode.Written := by
  have each_test : ∀ t ∈ p.testcases, t.encode.Written := fun t _ =>
    written_object (by simp [Json.Name.isPrinted]) ⟨trivial, trivial⟩
  exact written_object (by simp [Json.Name.isPrinted]) ⟨written_ofInt _, written_option fun _ _ => written_ofNat _,
    written_option fun _ _ => written_ofNat _, written_list each_test, trivial,
    written_option fun _ _ => trivial, written_option fun _ _ => written_ofInt _⟩

theorem Language.written (l : Language) : l.encode.Written :=
  written_object (by simp [Json.Name.isPrinted]) ⟨written_ofInt _, trivial, trivial, written_option fun _ _ => trivial,
    written_option fun _ _ => trivial, trivial, trivial, written_ofNat _, written_ofNat _⟩

theorem TestCaseResult.written (r : TestCaseResult) : r.encode.Written :=
  written_object (by simp [Json.Name.isPrinted]) ⟨written_ofNat _, trivial, written_ofNat _, written_ofNat _, written_ofNat _,
    trivial, trivial⟩

theorem JudgeOutcome.written (o : JudgeOutcome) : o.encode.Written :=
  written_object (by simp [Json.Name.isPrinted]) ⟨trivial, written_ofNat _, written_ofNat _, written_ofNat _,
    written_list fun r _ => r.written, written_option fun _ _ => trivial⟩

theorem Submission.written (s : Submission) : s.encode.Written :=
  written_object (by simp [Json.Name.isPrinted]) ⟨written_ofInt _, trivial, written_ofInt _, written_ofInt _, written_ofInt _,
    trivial, written_ofNat _, written_ofNat _, written_ofNat _, written_list fun r _ => r.written,
    written_option fun _ _ => trivial, written_option fun g _ => g.written⟩

theorem Job.written (w : Job) : w.encode.Written := by
  cases w <;> exact written_object (by simp [Json.Name.isPrinted]) ⟨trivial, written_ofInt _⟩

end Texts

/-- Decoding gives the value back from the text of its encoding, and from each text of a variant of that,
in which the further fields hold values as `extra` says. -/
structure RoundTrips (encode : α → Json) (decode? : Json.Decoder α) (extra : Json → Prop) (a : α) :
    Prop where
  encoded : Json.parse? (Json.render (encode a)) >>= decode? = some a
  varied : ∀ text j, Json.parse? text = some j → Json.Varies extra (encode a) j →
    Json.parse? text >>= decode? = some a

theorem roundTrips_of_decodes {encode : α → Json} {decode? : Json.Decoder α} {extra : Json → Prop} {a : α}
    (written : (encode a).Written) (h : Decodes extra decode? (encode a) a) :
    RoundTrips encode decode? extra a where
  encoded := by
    rw [Json.parse?_render written]
    exact h _ (Json.varies_same _ written)
  varied text j read varies := by
    rw [read]
    exact h j varies

/-- Any value at all. -/
def anyValue (_ : Json) : Prop := True

/-- A value that a job can hold in a further field. -/
def keptByJob (j : Json) : Prop := j.isKept (Job.depthLimit - 1) = true

/-- Records come back from their texts. The fields that take numbers of any size have to fit 64 bits. -/
theorem records_round_trip :
    (∀ p : Problem, RoundTrips Problem.encode Problem.decode? anyValue p) ∧
    (∀ l : Language, RoundTrips Language.encode Language.decode? anyValue l) ∧
    (∀ s : Submission, s.Fits → RoundTrips Submission.encode Submission.decode? anyValue s) ∧
    (∀ r : TestCaseResult, r.index < UInt64.size →
      RoundTrips TestCaseResult.encode TestCaseResult.decode? anyValue r) ∧
    (∀ o : JudgeOutcome, (∀ r ∈ o.results, r.index < UInt64.size) →
      RoundTrips JudgeOutcome.encode JudgeOutcome.decode? anyValue o) ∧
    (∀ g : Dependence.Graph, g.Fits →
      RoundTrips Dependence.Graph.encode Dependence.Graph.decode? anyValue g) ∧
    ∀ w : Job, RoundTrips Job.encode Job.decode? keptByJob w :=
  ⟨fun p => roundTrips_of_decodes p.written p.decodes,
    fun l => roundTrips_of_decodes l.written l.decodes,
    fun s fits => roundTrips_of_decodes s.written fits.decodes,
    fun r fits => roundTrips_of_decodes r.written (TestCaseResult.decodes fits),
    fun o fits => roundTrips_of_decodes o.written (JudgeOutcome.decodes fits),
    fun g fits => roundTrips_of_decodes g.written fits.decodes,
    fun w => roundTrips_of_decodes w.written (w.decodes fun _ kept => kept)⟩

/-- A submission with text that has to be escaped, a result and a graph. -/
def Submission.sample : Submission :=
  { Submission.fresh 1 "s = \"é\\\u0001\"\n" 2 3 4 with
    results := [.stamped 1 .unknown "late"]
    graph := some ⟨[⟨0, "entry", ""⟩, ⟨1, "s", "h"⟩], [⟨0, 1, .control⟩]⟩ }

/-- A job whose kind comes last, after a field that no job has. -/
def Job.shuffled : Json := .object [
  ("more", .array [.null]), ("task_id", .ofInt 7), ("job_type", .string "plagiarism")]

theorem Job.written_shuffled : shuffled.Written :=
  Json.written_object (by simp [Json.Name.isPrinted]) ⟨⟨trivial, trivial⟩, written_ofInt 7, trivial⟩

theorem Job.varies_shuffled : Json.Varies keptByJob (plagiarism 7).encode shuffled := by
  let fields : List (Json.Name × Json) :=
    [("job_type", .string "plagiarism"), ("task_id", .ofInt 7), ("more", .array [.null])]
  refine Json.varies_of_perm (plagiarism 7).written (List.reverse_perm fields) ?_ ?_
  · rintro _ (_ | ⟨_, ⟨⟩⟩)
    simp
  · rintro _ (_ | ⟨_, ⟨⟩⟩)
    rfl

theorem records_round_trip_samples :
    Submission.sample.Fits ∧
      Json.parse? (Json.render Submission.sample.encode) >>= Submission.decode? = some .sample ∧
      Json.Varies keptByJob (Job.plagiarism 7).encode Job.shuffled ∧
      Json.parse? (Json.render Job.shuffled) >>= Job.decode? = some (.plagiarism 7) := by
  have fits : Submission.sample.Fits := by
    refine ⟨by decide, ?_⟩
    rintro _ ⟨⟩
    exact ⟨by decide, by decide, by decide⟩
  obtain ⟨-, -, submissions, -, -, -, jobs⟩ := records_round_trip
  exact ⟨fits, (submissions .sample fits).encoded, Job.varies_shuffled,
    (jobs (.plagiarism 7)).varied _ _ (Json.parse?_render Job.written_shuffled) Job.varies_shuffled⟩

/-- A job with a further field that holds a number past the largest binary fraction. -/
def Job.overflowing : Json := .object [("job_type", .string "judge"), ("submission_id", .ofInt 1),
  ("x", .number ⟨false, ['1'], none, some (false, ['9', '9', '9'])⟩)]

theorem Job.written_overflowing : overflowing.Written := by
  refine Json.written_object (by simp [Json.Name.isPrinted]) ⟨trivial, written_ofInt 1, ?_⟩
  constructor
  · exact ⟨List.cons_ne_nil _ _, by simp⟩
  · exact .inr (by simp)
  · intro ds found
    cases found
  · intro e found
    cases found
    exact ⟨List.cons_ne_nil _ _, by simp⟩

theorem Job.varies_overflowing : Json.Varies anyValue (judge 1).encode overflowing := by
  refine Json.varies_of_perm (judge 1).written (.refl _) ?_ fun _ _ => trivial
  rintro _ (_ | ⟨_, ⟨⟩⟩)
  simp

theorem Job.decode?_overflowing : Job.decode? overflowing = none := by
  have lost : overflowing.isKept depthLimit = false := by decide +kernel
  simp only [Job.decode?, lost, guard]
  rfl

/-- Of a job not every further field is passed over. -/
theorem not_roundTrips_overflowing :
    let text := "\x7b\"job_type\":\"judge\",\"submission_id\":1,\"x\":1e+999\x7d"
    Json.parse? text = some Job.overflowing ∧
      Json.Varies anyValue (Job.judge 1).encode Job.overflowing ∧
      ¬ RoundTrips Job.encode Job.decode? anyValue (.judge 1) := by
  have written : Json.render Job.overflowing =
      "\x7b\"job_type\":\"judge\",\"submission_id\":1,\"x\":1e+999\x7d" := by decide +kernel
  have read := Json.parse?_render Job.written_overflowing
  rw [written] at read
  refine ⟨read, Job.varies_overflowing, fun trips => ?_⟩
  have decoded := trips.varied _ _ read Job.varies_overflowing
  rw [read, Option.bind_eq_bind, Option.bind_some, Job.decode?_overflowing] at decoded
  cases decoded

end Arbiter
