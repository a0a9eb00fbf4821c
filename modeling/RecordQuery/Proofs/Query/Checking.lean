import RecordQuery.Command.Select
import RecordQuery.Proofs.Query.Request
import RecordQuery.Proofs.Result
import Mathlib.Data.List.TakeWhile

/-!
Checking against running. The texts of a request settle whether it can be run, and which fault is reported if not;
the records have no say in it. So a request is checked without records: it passes if it runs over any of them, and
otherwise the check gives the fault that every run gives.
-/
namespace RecordQuery

namespace Engine

variable {ρ : Type} (e : Engine ρ)

theorem outcome_run (p : Parameters) (records : List ρ) :
    outcome (e.run p records) = e.validate p.filter p.orderBy := by
  rw [run_eq, validate_eq]
  cases e.testOf p.filter with
  | error fault => rfl
  | ok test => cases e.orderOf p.orderBy <;> rfl

/-- The fault of the filter comes before that of the sort text. -/
theorem validate_eq_error_iff {filter orderBy : Option String} {fault : QueryError} :
    e.validate filter orderBy = .error fault ↔ e.testOf filter = .error fault ∨
      (∃ test, e.testOf filter = .ok test) ∧ e.orderOf orderBy = .error fault := by
  rw [validate_eq]
  cases e.testOf filter with
  | error fault' => simp [Except.bind]
  | ok test => cases e.orderOf orderBy <;> simp [Except.bind, Except.map]

end Engine

namespace Command

/-- The items of an array are the records, in their canonical form. -/
theorem records_of_array {input : String} {items : List Json} (h : Json.ofText? input = some (.array items))
    (wording : Wording) : records (some input) wording = .ok (Json.canonicalItems items) := by
  simp [records, h, Json.canonical]

theorem outcome_select (schema : String) {input : String} {items : List Json}
    (h : Json.ofText? input = some (.array items)) (p : Parameters) (config : Config) (wording : Wording) :
    outcome (select schema (some input) p config wording) =
      outcome (check schema p.filter p.orderBy config wording) := by
  unfold select check
  cases engine schema config wording with
  | error failure => rfl
  | ok e =>
    have hrun := e.outcome_run p (Json.canonicalItems items)
    simp only [records_of_array h wording, bind, Except.bind, ← hrun]
    cases e.run p (Json.canonicalItems items) <;> rfl

/-- A request runs over records if and only if it passes the check without any, and otherwise both give the same
fault, that of the filter first. So no two lists of records can be told apart by whether a request fails, nor by
how. The commands over documents agree in the same way, for every input that is an array; in whatever words a schema is
refused, both refuse it in these. -/
theorem run_agrees_with_check :
    (∀ {ρ : Type} (e : Engine ρ) (p : Parameters) (records records' : List ρ),
      ((∃ rows, e.run p records = .ok rows) ↔ e.validate p.filter p.orderBy = .ok ()) ∧
      (∀ fault, e.run p records = .error fault ↔ e.validate p.filter p.orderBy = .error fault) ∧
      (∀ fault, e.validate p.filter p.orderBy = .error fault ↔ e.testOf p.filter = .error fault ∨
        (∃ test, e.testOf p.filter = .ok test) ∧ e.orderOf p.orderBy = .error fault) ∧
      ((∃ rows, e.run p records = .ok rows) ↔ ∃ rows, e.run p records' = .ok rows) ∧
      ∀ fault, e.run p records = .error fault ↔ e.run p records' = .error fault) ∧
    ∀ (schema input : String) (p : Parameters) (config : Config) (wording : Wording) (items : List Json),
      Json.ofText? input = some (.array items) →
      ((∃ selected, select schema (some input) p config wording = .ok selected) ↔
        ∃ fields, check schema p.filter p.orderBy config wording = .ok fields) ∧
      ∀ failure, select schema (some input) p config wording = .error failure ↔
        check schema p.filter p.orderBy config wording = .error failure := by
  constructor
  · intro ρ e p records records'
    have hrun := e.outcome_run p records
    have hsame : outcome (e.run p records) = outcome (e.run p records') := by
      rw [hrun, e.outcome_run p records']
    obtain ⟨hok, herror⟩ := agree_of_outcome hsame
    refine ⟨?_, ?_, fun fault => e.validate_eq_error_iff, hok, herror⟩
    · rw [exists_ok_iff_outcome, hrun]
    · intro fault
      rw [eq_error_iff_outcome, hrun]
  · intro schema input p config wording items h
    exact agree_of_outcome (outcome_select schema h p config wording)

/-- The fault of the filter is reported, not that of the sort text, and also where there is nothing to select. -/
theorem run_agrees_with_check_empty :
    Json.ofText? "[]" = some (.array []) ∧
      select "\x7b\"Age\": \"int\"\x7d" (some "[]") ⟨some "Age equals x", some "Name", none, none⟩ .default =
        .error (.query (.invalidLiteral "Age" "x" .int)) := by
  have harray : Json.ofText? "[]" = some (.array []) := by cbv
  have hcheck : check "\x7b\"Age\": \"int\"\x7d" (some "Age equals x") (some "Name") .default =
      .error (.query (.invalidLiteral "Age" "x" .int)) := by decide +kernel
  exact ⟨harray, ((run_agrees_with_check.2 _ _ _ _ _ _ harray).2 _).mpr hcheck⟩

end Command

end RecordQuery
