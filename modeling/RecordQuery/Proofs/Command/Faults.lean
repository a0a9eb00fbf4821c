import RecordQuery.Command.Program
import RecordQuery.Proofs.Json.RoundTrip
import RecordQuery.Proofs.Query.Checking
import RecordQuery.Proofs.Query.Steps

/-!
Faults of a query on the command line. Eight things can be wrong, each of them whatever the others are, and they are
looked for in a fixed order. A query with any fault writes the message of the first one and nothing else; one without a
fault writes what it selects. The records have no say in it, once they stand in an array.
-/
namespace RecordQuery

namespace Engine

variable {ρ : Type} (e : Engine ρ)

theorem fault?_testOf (filter : Option String) :
    fault? (e.testOf filter) = (asked filter).bind fun text => fault? (e.compileFilter text) := by
  unfold testOf
  cases asked filter <;> rfl

theorem fault?_orderOf (orderBy : Option String) :
    fault? (e.orderOf orderBy) = (asked orderBy).bind fun text => fault? (e.compileOrder text) := by
  unfold orderOf
  cases asked orderBy <;> rfl

theorem fault?_run (p : Parameters) (records : List ρ) :
    fault? (e.run p records) = (fault? (e.testOf p.filter)).or (fault? (e.orderOf p.orderBy)) := by
  rw [run_eq]
  exact fault?_bind fun test _ => fault?_map _ _

/-- A run selects records of the input, at their places. -/
theorem given_of_run {p : Parameters} {records : List ρ} {rows : List (Row ρ)} (h : e.run p records = .ok rows) :
    ∀ row ∈ rows, records[row.position]? = some row.record := by
  rw [run_eq] at h
  obtain ⟨test, -, h⟩ := exists_of_bind_eq_ok h
  obtain ⟨comparator, -, rfl⟩ := exists_of_map_eq_ok h
  intro row hrow
  have hsorted := List.mem_of_mem_drop (List.mem_of_mem_take hrow)
  have hkept := ((comparator.on Row.record).perm_sort _).mem_iff.mp hsorted
  exact Row.mem_ofList.mp (List.mem_filter.mp hkept).1

end Engine

namespace Command

/-! ## Stages -/

/-- What is looked at, in this order. -/
inductive Stage where
  | schemaFile
  | skip
  | take
  | schema
  | input
  | array
  | filter
  | orderBy
deriving DecidableEq, Repr

def Stage.all : List Stage :=
  [schemaFile, skip, take, schema, input, array, filter, orderBy]

namespace QueryArguments

variable (a : QueryArguments) (stdin : Option String) (wording : Wording)

def countFailure? (key : String) (value : Option String) : Option Failure :=
  value.bind fun value =>
    if (Number.count? value.toList).isNone then some (.query (.invalidParameter key value)) else none

/-- The failure of a text against the schema, where there is one and a schema to compile it against. -/
def textFailure? {α : Type} (text : Option String) (compile : Registry Json → String → Except QueryError α) :
    Option Failure :=
  (a.schema.bind Schema.ofText?).bind fun schema => (Engine.asked text).bind fun text =>
    (fault? (compile (Schema.registry schema) text)).map .query

/-- What is wrong at a stage, taken by itself. -/
def failureAt : Stage → Option Failure
  | .schemaFile => if a.schema.isNone then some .missingFile else none
  | .skip => countFailure? "skip" a.skip
  | .take => countFailure? "take" a.take
  | .schema => a.schema.bind fun text =>
    if (Schema.ofText? text).isNone then some (Document.schema.refused wording text) else none
  | .input =>
    match a.inputText stdin with
    | none => some .noInput
    | some text => if (Json.ofText? text).isNone then some (Document.input.refused wording text) else none
  | .array => ((a.inputText stdin).bind Json.ofText?).bind fun
    | .array _ => none
    | _ => some .notAnArray
  | .filter => a.textFailure? a.filter fun registry => Filter.compile registry a.config.maxNesting
  | .orderBy => a.textFailure? a.orderBy Sorting.compile

/-- The first thing that is wrong. -/
def firstFailure? : Option Failure :=
  Stage.all.findSome? (a.failureAt stdin wording)

end QueryArguments

/-! ## Faults of each stage -/

theorem Stage.findSome?_all {β : Type} (f : Stage → Option β) : all.findSome? f =
    (f schemaFile).or ((f skip).or ((f take).or ((f schema).or
      ((f input).or ((f array).or ((f filter).or (f orderBy))))))) := by
  have hcons : ∀ (s : Stage) (stages : List Stage), (s :: stages).findSome? f = (f s).or (stages.findSome? f) := by
    intro s stages
    rw [List.findSome?_cons]
    cases f s <;> rfl
  simp only [all, hcons, List.findSome?_nil, Option.or_none]

theorem fault?_ofQuery {α : Type} (r : Except QueryError α) : fault? (ofQuery r) = (fault? r).map .query := by
  cases r <;> rfl

theorem fault?_count (key : String) (value : Option String) :
    fault? (ofQuery (Parameters.count? key value)) = QueryArguments.countFailure? key value := by
  cases value with
  | none => rfl
  | some value =>
    simp only [Parameters.count?, readCount, QueryArguments.countFailure?, Option.bind_some]
    cases Number.count? value.toList <;> rfl

theorem present_eq_ok {file : Option String} {text : String} (h : present file = .ok text) : file = some text := by
  cases file with
  | none => cases h
  | some text' => exact congrArg some (Except.ok.inj h)

theorem ofQuery_eq_ok {α : Type} {r : Except QueryError α} {x : α} (h : ofQuery r = .ok x) : r = .ok x := by
  cases r with
  | error fault => cases h
  | ok x' => exact congrArg Except.ok (Except.ok.inj h)

theorem engine_eq_ok {document : String} {config : Config} {wording : Wording} {e : Engine Json}
    (h : engine document config wording = .ok e) :
    ∃ schema, Schema.ofText? document = some schema ∧ e = ⟨Schema.registry schema, config⟩ := by
  unfold engine at h
  split at h
  · rename_i schema hschema
    obtain rfl := Except.ok.inj h
    exact ⟨schema, hschema, rfl⟩
  · cases h

theorem records_eq_ok {input : Option String} {wording : Wording} {items : List Json}
    (h : records input wording = .ok items) :
    ∃ raw, input.bind Json.ofText? = some (.array raw) ∧ items = Json.canonicalItems raw := by
  cases input with
  | none => cases h
  | some text =>
    cases hread : Json.ofText? text with
    | none => simp [records, hread] at h
    | some json =>
      cases json with
      | array raw =>
        rw [records_of_array hread] at h
        exact ⟨raw, hread, (Except.ok.inj h).symm⟩
      | _ => simp [records, hread, Json.canonical] at h

namespace QueryArguments

variable (a : QueryArguments) (stdin : Option String) (wording : Wording)

theorem fault?_present : fault? (present a.schema) = a.failureAt stdin wording .schemaFile := by
  unfold present failureAt
  cases a.schema <;> rfl

variable {a} in
theorem fault?_engine {document : String} (h : a.schema = some document) :
    fault? (engine document a.config wording) = a.failureAt stdin wording .schema := by
  unfold engine failureAt
  rw [h, Option.bind_some]
  cases Schema.ofText? document <;> rfl

theorem fault?_records : fault? (records (a.inputText stdin) wording) =
    (a.failureAt stdin wording .input).or (a.failureAt stdin wording .array) := by
  cases htext : a.inputText stdin with
  | none => simp [records, failureAt, htext, fault?]
  | some text =>
    cases hread : Json.ofText? text with
    | none => simp [records, failureAt, htext, hread, fault?]
    | some json => cases json <;> simp [records, failureAt, htext, hread, Json.canonical, fault?]

variable {a} in
theorem fault?_texts {document : String} {schema : Schema} (h : a.schema = some document)
    (hschema : Schema.ofText? document = some schema) (p : Parameters) (hfilter : p.filter = a.filter)
    (horderBy : p.orderBy = a.orderBy) (items : List Json) :
    fault? (ofQuery (Engine.run ⟨Schema.registry schema, a.config⟩ p items)) =
      (a.failureAt stdin wording .filter).or (a.failureAt stdin wording .orderBy) := by
  have hread : a.schema.bind Schema.ofText? = some schema := by
    rw [h]
    exact hschema
  rw [fault?_ofQuery, Engine.fault?_run, Option.map_or, Engine.fault?_testOf, Engine.fault?_orderOf, hfilter, horderBy]
  simp only [failureAt, textFailure?, hread, Option.bind_some, Option.map_bind]
  rfl

/-- The steps of a query, one behind the other. -/
theorem run_eq : a.run stdin wording = (do
    let document ← present a.schema
    let skip ← ofQuery (Parameters.count? "skip" a.skip)
    let take ← ofQuery (Parameters.count? "take" a.take)
    let engine ← engine document a.config wording
    let items ← records (a.inputText stdin) wording
    let rows ← ofQuery (engine.run ⟨a.filter, a.orderBy, skip, take⟩ items)
    let selected := Json.array (rows.map (·.record))
    .ok ((if a.pretty then selected.toIndentedText else selected.toText) ++ "\n")) := by
  unfold run Parameters.ofRequest select
  cases present a.schema with
  | error failure => rfl
  | ok document =>
    simp only [bind, Except.bind]
    cases Parameters.count? "skip" a.skip with
    | error fault => rfl
    | ok skip =>
      cases Parameters.count? "take" a.take with
      | error fault => rfl
      | ok take =>
        dsimp only [ofQuery, Except.mapError]
        cases engine document a.config wording with
        | error failure => rfl
        | ok engine =>
          dsimp only
          cases records (a.inputText stdin) wording with
          | error failure => rfl
          | ok items =>
            dsimp only
            cases engine.run ⟨a.filter, a.orderBy, skip, take⟩ items <;> rfl

/-- Of all that is wrong a query fails with the first. -/
theorem fault?_run : fault? (a.run stdin wording) = a.firstFailure? stdin wording := by
  have hskip : a.failureAt stdin wording .skip = fault? (ofQuery (Parameters.count? "skip" a.skip)) :=
    (fault?_count "skip" a.skip).symm
  have htake : a.failureAt stdin wording .take = fault? (ofQuery (Parameters.count? "take" a.take)) :=
    (fault?_count "take" a.take).symm
  rw [run_eq, firstFailure?, Stage.findSome?_all, hskip, htake, ← fault?_present]
  refine fault?_bind fun document hpresent => fault?_bind fun skip _ => fault?_bind fun take _ => ?_
  have hdocument := present_eq_ok hpresent
  rw [← fault?_engine stdin wording hdocument]
  refine fault?_bind fun engine hengine => ?_
  rw [← Option.or_assoc, ← fault?_records]
  refine fault?_bind fun items _ => ?_
  obtain ⟨schema, hschema, rfl⟩ := engine_eq_ok hengine
  rw [← fault?_texts stdin wording hdocument hschema ⟨a.filter, a.orderBy, skip, take⟩ rfl rfl items]
  refine Eq.trans (fault?_bind fun rows _ => ?_) Option.or_none
  rfl

theorem firstFailure?_eq_none :
    a.firstFailure? stdin wording = none ↔ ∀ stage, a.failureAt stdin wording stage = none := by
  have hall : ∀ stage, stage ∈ Stage.all := by
    intro stage
    cases stage <;> decide
  rw [firstFailure?, List.findSome?_eq_none_iff]
  exact ⟨fun h stage => h stage (hall stage), fun h stage _ => h stage⟩

variable {a stdin wording}

theorem outcome_of_failure {failure : Failure} (h : a.firstFailure? stdin wording = some failure) :
    (Invocation.query a).run stdin wording = ⟨1, "", failure.message ++ "\n"⟩ := by
  have hrun : (Invocation.query a).result stdin wording = .error failure :=
    fault?_eq_some_iff.mp ((a.fault?_run stdin wording).trans h)
  rw [Invocation.run, hrun]

theorem exists_rows (h : a.firstFailure? stdin wording = none) : ∃ document schema items skip take rows,
    a.schema = some document ∧ Schema.ofText? document = some schema ∧
    (a.inputText stdin).bind Json.ofText? = some (.array items) ∧
    Parameters.count? "skip" a.skip = .ok skip ∧ Parameters.count? "take" a.take = .ok take ∧
    Engine.run ⟨Schema.registry schema, a.config⟩ ⟨a.filter, a.orderBy, skip, take⟩ (Json.canonicalItems items) =
      .ok rows ∧
    (Invocation.query a).run stdin wording = ⟨0, (if a.pretty then (Json.array (rows.map (·.record))).toIndentedText
      else (Json.array (rows.map (·.record))).toText) ++ "\n", ""⟩ := by
  obtain ⟨output, houtput⟩ := fault?_eq_none_iff.mp ((a.fault?_run stdin wording).trans h)
  have hresult : (Invocation.query a).result stdin wording = .ok output := houtput
  rw [run_eq] at houtput
  obtain ⟨document, hdocument, houtput⟩ := exists_of_bind_eq_ok houtput
  obtain ⟨skip, hskip, houtput⟩ := exists_of_bind_eq_ok houtput
  obtain ⟨take, htake, houtput⟩ := exists_of_bind_eq_ok houtput
  obtain ⟨engine, hengine, houtput⟩ := exists_of_bind_eq_ok houtput
  obtain ⟨items, hitems, houtput⟩ := exists_of_bind_eq_ok houtput
  obtain ⟨rows, hrows, houtput⟩ := exists_of_bind_eq_ok houtput
  obtain rfl := Except.ok.inj houtput
  obtain ⟨schema, hschema, rfl⟩ := engine_eq_ok hengine
  obtain ⟨raw, hraw, rfl⟩ := records_eq_ok hitems
  refine ⟨document, schema, raw, skip, take, rows, present_eq_ok hdocument, hschema, hraw, ofQuery_eq_ok hskip,
    ofQuery_eq_ok htake, ofQuery_eq_ok hrows, ?_⟩
  rw [Invocation.run, hresult]

/-- Nothing is wrong with an input that is JSON. -/
theorem failureAt_input {json : Json} (h : (a.inputText stdin).bind Json.ofText? = some json) :
    a.failureAt stdin wording .input = none := by
  obtain ⟨text, htext, hread⟩ := Option.bind_eq_some_iff.mp h
  simp [failureAt, htext, hread]

/-- A query fails with what is wrong first, and with nothing else. -/
theorem outcome_eq_iff {errors : String} : (Invocation.query a).run stdin wording = ⟨1, "", errors⟩ ↔
    ∃ failure, a.firstFailure? stdin wording = some failure ∧ errors = failure.message ++ "\n" := by
  cases hfirst : a.firstFailure? stdin wording with
  | none =>
    obtain ⟨_, _, _, _, _, _, -, -, -, -, -, -, houtcome⟩ := exists_rows hfirst
    simp [houtcome]
  | some failure => simp [outcome_of_failure hfirst, eq_comm]

end QueryArguments

/-- A query on the command line is all or nothing. If anything is wrong with it, the first fault in the order of the
stages is what it reports, whatever else is wrong, and it writes nothing to its output; a schema and an input that are
refused are reported each in the words of its own reader. If nothing is wrong, it writes the array of the records that a
run of the engine selects, as they were read, and no errors. Another array in the place of an array, given as an argument
or not, makes no difference to the fault that is reported. -/
theorem query_outcome (a : QueryArguments) (stdin : Option String) (wording : Wording) :
    ((∃ stage, a.failureAt stdin wording stage ≠ none) →
      ∃ failure, Stage.all.findSome? (a.failureAt stdin wording) = some failure ∧
        (Invocation.query a).run stdin wording = ⟨1, "", failure.message ++ "\n"⟩) ∧
    ((∀ stage, a.failureAt stdin wording stage = none) → ∃ document schema items skip take rows,
      a.schema = some document ∧ Schema.ofText? document = some schema ∧
      (a.inputText stdin).bind Json.ofText? = some (.array items) ∧
      Parameters.count? "skip" a.skip = .ok skip ∧ Parameters.count? "take" a.take = .ok take ∧
      Engine.run ⟨Schema.registry schema, a.config⟩ ⟨a.filter, a.orderBy, skip, take⟩ (Json.canonicalItems items) =
        .ok rows ∧
      (∀ row ∈ rows, (Json.canonicalItems items)[row.position]? = some row.record) ∧
      (Invocation.query a).run stdin wording = ⟨0, (if a.pretty then (Json.array (rows.map (·.record))).toIndentedText
        else (Json.array (rows.map (·.record))).toText) ++ "\n", ""⟩) ∧
    ∀ input stdin' items items', (a.inputText stdin).bind Json.ofText? = some (.array items) →
      ({ a with input := input }.inputText stdin').bind Json.ofText? = some (.array items') →
      ∀ errors, (Invocation.query a).run stdin wording = ⟨1, "", errors⟩ ↔
        (Invocation.query { a with input := input }).run stdin' wording = ⟨1, "", errors⟩ := by
  have hfirst : Stage.all.findSome? (a.failureAt stdin wording) = a.firstFailure? stdin wording := rfl
  refine ⟨fun hany => ?_, fun hnone => ?_, fun input stdin' items items' hitems hitems' errors => ?_⟩
  · obtain ⟨stage, hstage⟩ := hany
    cases hfailure : a.firstFailure? stdin wording with
    | none => exact absurd ((a.firstFailure?_eq_none stdin wording).mp hfailure stage) hstage
    | some failure => exact ⟨failure, hfirst.trans hfailure, QueryArguments.outcome_of_failure hfailure⟩
  · obtain ⟨document, schema, items, skip, take, rows, hdocument, hschema, hitems, hskip, htake, hrows, houtcome⟩ :=
      QueryArguments.exists_rows ((a.firstFailure?_eq_none stdin wording).mpr hnone)
    exact ⟨document, schema, items, skip, take, rows, hdocument, hschema, hitems, hskip, htake, hrows,
      Engine.given_of_run _ hrows, houtcome⟩
  · have hsame : a.firstFailure? stdin wording = { a with input := input }.firstFailure? stdin' wording := by
      refine congrArg Stage.all.findSome? (funext fun stage => ?_)
      cases stage with
      | input =>
        rw [QueryArguments.failureAt_input hitems, QueryArguments.failureAt_input hitems']
      | array =>
        simp only [QueryArguments.failureAt, hitems, hitems']
        rfl
      | _ => rfl
    rw [QueryArguments.outcome_eq_iff, QueryArguments.outcome_eq_iff, hsame]

/-- The number to take is looked at before the documents, and the schema before the input, each of which its reader
refuses in words of its own. With these three put right nothing is wrong. -/
theorem query_outcome_three_faults :
    let wording : Wording := fun
      | .schema, _ => "EOF while parsing an object"
      | .input, _ => "EOF while parsing a list"
    let faulty (take : Option String) : QueryArguments :=
      ⟨some "\x7b", none, none, none, none, take, .default, false⟩
    let right : QueryArguments :=
      ⟨some "\x7b\"Age\": \"int\"\x7d", none, some "Age equals 3", none, some "1", none, .default, false⟩
    (faulty none).failureAt (some "[") wording .schema = some (Document.schema.refused wording "\x7b") ∧
      (faulty none).failureAt (some "[") wording .input = some (Document.input.refused wording "[") ∧
      (Invocation.query (faulty (some "-1"))).run (some "[") wording =
        ⟨1, "", (QueryError.invalidParameter "take" "-1").message ++ "\n"⟩ ∧
      (Invocation.query (faulty none)).run (some "[") wording =
        ⟨1, "", "Invalid JSON: EOF while parsing an object\n"⟩ ∧
      (∀ stage, right.failureAt (some "[]") wording stage = none) ∧
      ((Invocation.query right).run (some "[]") wording).code = 0 ∧
      ∀ errors, (Invocation.query (faulty none)).run (some "[]") wording = ⟨1, "", errors⟩ ↔
        (Invocation.query { faulty none with input := some "[null]" }).run none wording = ⟨1, "", errors⟩ := by
  intro wording faulty right
  have hschema : (faulty none).failureAt (some "[") wording .schema =
      some (Document.schema.refused wording "\x7b") := by decide +kernel
  have hinput : (faulty none).failureAt (some "[") wording .input =
      some (Document.input.refused wording "[") := by decide +kernel
  have hcount : Stage.all.findSome? ((faulty (some "-1")).failureAt (some "[") wording) =
      some (.query (.invalidParameter "take" "-1")) := by decide +kernel
  have hfirst : Stage.all.findSome? ((faulty none).failureAt (some "[") wording) =
      some (Document.schema.refused wording "\x7b") := by decide +kernel
  have hright : ∀ stage, right.failureAt (some "[]") wording stage = none := by
    intro stage
    cases stage <;> decide +kernel
  have hempty : Json.ofText? "[]" = some (.array []) := by cbv
  have hnull : Json.ofText? "[null]" = some (.array [.null]) := by
    have htext : (Json.array [.null]).toText = "[null]" := by decide +kernel
    rw [← htext]
    exact Json.ofText?_toText (.array (by simpa using .null))
  obtain ⟨failure, hfailure, htake⟩ :=
    (query_outcome (faulty (some "-1")) (some "[") wording).1 ⟨.input, by decide +kernel⟩
  obtain rfl := Option.some.inj (hcount.symm.trans hfailure)
  obtain ⟨failure, hfailure, hdocument⟩ :=
    (query_outcome (faulty none) (some "[") wording).1 ⟨.input, by simp [hinput]⟩
  obtain rfl := Option.some.inj (hfirst.symm.trans hfailure)
  obtain ⟨_, _, _, _, _, _, -, -, -, -, -, -, -, hsucceeds⟩ := (query_outcome right (some "[]") wording).2.1 hright
  refine ⟨hschema, hinput, htake, hdocument, hright, ?_, (query_outcome _ _ wording).2.2 _ _ _ _ hempty hnull⟩
  rw [hsucceeds]

end Command

end RecordQuery
