import RecordQuery.Proofs.Calendar.Spelling
import RecordQuery.Proofs.Record.Related
import RecordQuery.Proofs.Record.Values

/-!
Moments and their spellings. All texts of one moment are read as that moment, in records as in queries. So it makes no
difference which of them a record holds, nor which of them a query compares it with.
-/
namespace RecordQuery

open Calendar (Moment Zone)

namespace Scalar

variable {type : Scalar} {m : Moment} {text : String}

/-- Two members that hold the same moment: under a field of moments, two of its spellings. -/
inductive SameMoment (type : Scalar) : Option Json → Option Json → Prop
  | same (value : Option Json) : SameMoment type value value
  | spelled (htype : type ∈ [dateTime, optionalDateTime]) {m : Moment} {text text' : String}
      (h : m.Spelling text.toList) (h' : m.Spelling text'.toList) :
      SameMoment type (some (.string text)) (some (.string text'))

theorem SameMoment.reads {a b : Option Json} (h : type.SameMoment a b) :
    a.bind type.ofJson? = b.bind type.ofJson? := by
  cases h with
  | same => rfl
  | spelled htype h h' =>
    have hsame := h.ofText?_eq.trans h'.ofText?_eq.symm
    rcases List.mem_pair.mp htype with rfl | rfl
    · exact hsame
    · exact hsame

end Scalar

namespace Schema

open RecordQuery.Filter

variable {schema : Schema} {name : String} {type : Scalar}

/-- A comparison with a spelling of a moment compares moments, whatever the spellings are that records hold. -/
theorem compileClause_moment (hget : schema.get? name = some (.scalar type))
    (htype : type ∈ [.dateTime, .optionalDateTime]) {m : Moment} {text : String} (htext : m.Spelling text.toList)
    {word : String} {c : Comparison} (hword : Operator.ofWord? word = some (.compare c)) (nesting : Nesting) :
    ∃ test, compileClause (registry schema) nesting ⟨name, word, .literal text⟩ = .ok test ∧
      ∀ (n : Moment) (text' : String) (record : Json), n.Spelling text'.toList →
        record.get? name = some (.string text') → test record = c.admits (compare n m) := by
  have hread := htext.ofText?_eq
  rcases List.mem_pair.mp htype with rfl | rfl
  all_goals
    have hget := get?_registry_scalar hget
    obtain ⟨test, htest, hholds⟩ := compileClause_compare_value hget (by decide) hword hread nesting
    refine ⟨test, htest, fun n text' record htext' hrecord => ?_⟩
    exact hholds record n (Scalar.value?_read hrecord htext'.ofText?_eq)

/-- Two spellings of one moment can stand for each other in any clause. -/
theorem compileClause_spelling (hget : schema.get? name = some (.scalar type))
    (htype : type ∈ [.dateTime, .optionalDateTime]) {m : Moment} {text text' : String} (htext : m.Spelling text.toList)
    (htext' : m.Spelling text'.toList) (word : String) (nesting : Nesting) :
    compileClause (registry schema) nesting ⟨name, word, .literal text⟩ =
      compileClause (registry schema) nesting ⟨name, word, .literal text'⟩ := by
  rcases List.mem_pair.mp htype with rfl | rfl
  · exact compileClause_literal_congr (get?_registry_scalar hget) htext.ofText?_eq htext'.ofText?_eq word nesting
  · exact compileClause_literal_congr (get?_registry_scalar hget) htext.ofText?_eq htext'.ofText?_eq word nesting

/-- All spellings of a moment are the same moment. A date and time of a four-digit year at any distance of less than a
day from universal time can be written, and the moment at that distance is one and no other; it is what the text is read
as, and so are its own date and time without an offset if the year has four digits, with or without seconds, and a date
alone as its midnight. The spellings can stand for each other as literals, comparisons with one of them compare the
moments, and no query tells records apart in which spellings stand for each other at whatever places. -/
theorem query_moments (schema : Schema) :
    (∀ distance : Int, distance.natAbs < 1440 → ∃ zone, Zone distance zone) ∧
    (∀ (d : Moment) (distance : Int), d.Writable → distance.natAbs < 1440 → ∃! m : Moment,
      m.Proper ∧ m.minutes = d.minutes - distance ∧ m.second = d.second ∧ m.nanosecond = d.nanosecond) ∧
    (∀ (m : Moment) text, m.Spelling text → Moment.ofText? text = some m) ∧
    (∀ name, ∀ type ∈ [Scalar.dateTime, .optionalDateTime], schema.get? name = some (.scalar type) →
      ∀ (m : Moment) (text : String), m.Spelling text.toList → ∀ word nesting,
        (∀ text' : String, m.Spelling text'.toList →
          compileClause (registry schema) nesting ⟨name, word, .literal text⟩ =
            compileClause (registry schema) nesting ⟨name, word, .literal text'⟩) ∧
        ∀ c, Operator.ofWord? word = some (.compare c) → ∃ test,
          compileClause (registry schema) nesting ⟨name, word, .literal text⟩ = .ok test ∧
          ∀ (n : Moment) (text' : String) (record : Json), n.Spelling text'.toList →
            record.get? name = some (.string text') → test record = c.admits (compare n m)) ∧
    (∀ limit text p, Filter.compile (registry schema) limit text = .ok p →
      ∀ a b, schema.Related Scalar.SameMoment a b → p a = p b) ∧
    ∀ text c, Sorting.compile (registry schema) text = .ok c →
      ∀ a a' b b', schema.Related Scalar.SameMoment a a' → schema.Related Scalar.SameMoment b b' → c a b = c a' b' := by
  obtain ⟨hfilter, hsort⟩ := query_related (R := Scalar.SameMoment) (fun _ _ _ h => h.reads) schema
  refine ⟨fun distance h => Zone.exists_of_lt h, ?_, fun m text h => h.ofText?_eq, ?_, hfilter, hsort⟩
  · intro d distance hd hdistance
    exact hd.existsUnique_distance (by omega) (by omega)
  · intro name type htype hget m text htext word nesting
    exact ⟨fun text' htext' => compileClause_spelling hget htype htext htext' word nesting,
      fun c hword => compileClause_moment hget htype htext hword nesting⟩

/-- The leap second that ends the old year, as it is written where the new one has begun. -/
theorem query_moments_new_year :
    let visits : Schema := ⟨[("At", .scalar .dateTime)]⟩
    let schema : Schema := ⟨[("Seen", .scalar .optionalDateTime), ("Visits", .relation visits)]⟩
    let written : Moment := ⟨⟨2024, 1, 1⟩, 5, 29, 59, 1500000000⟩
    let moment : Moment := ⟨⟨2023, 12, 31⟩, 23, 59, 59, 1500000000⟩
    let ahead := "2024-01-01T05:29:60.5+05:30"
    let plain := "2023-12-31 23:59:60.500"
    let record : Json := .object [("Seen", .string ahead), ("Visits", .array [.object [("At", .string plain)]])]
    let other : Json := .object [("Seen", .string plain), ("Visits", .array [.object [("At", .string ahead)]])]
    let clause := fun operator text => compileClause (registry schema) (.ofLimit 0) ⟨"Seen", operator, .literal text⟩
    written.Writable ∧ Zone 330 "+05:30".toList ∧
    (∃! m : Moment, m.Proper ∧ m.minutes = written.minutes - 330 ∧ m.second = 59 ∧ m.nanosecond = 1500000000) ∧
    Moment.ofText? ahead.toList = some moment ∧ Moment.ofText? plain.toList = some moment ∧
    Moment.ofText? "2024-02-29".toList = some (.midnight ⟨2024, 2, 29⟩) ∧
    clause "equals" ahead = clause "equals" plain ∧
    (∃ less, clause "lessThan" plain = .ok less ∧ ¬ less record = true) ∧
    (∃ p, Filter.compile (registry schema) 1 "Seen lessThan 2024-01-01 and Visits any (At greaterThan 2023-01-01)" =
      .ok p ∧ p record = p other) ∧
    ∃ c, Sorting.compile (registry schema) "Seen desc" = .ok c ∧ ∀ third, c record third = c other third := by
  intro visits schema written moment ahead plain record other clause
  have hwritten : written.Writable := ⟨⟨by decide, by decide, by decide, by decide, by decide⟩, by decide, by decide⟩
  have hmoment : moment.Writable := ⟨⟨by decide, by decide, by decide, by decide, by decide⟩, by decide, by decide⟩
  have hzone : Zone 330 "+05:30".toList := by
    have hclock : Zone (60 * (5 : Nat) + (30 : Nat)) ('+' :: Number.padded 2 5 ++ ':' :: Number.padded 2 30) :=
      .ahead (by decide) (by decide)
    exact hclock
  have hahead : moment.Spelling ahead.toList := by
    have htext : ahead.toList = written.date.text ++ 'T' :: written.clock ++
        (written.secondText 1 ++ "+05:30".toList) := by decide +kernel
    rw [htext]
    exact .zoned hwritten ⟨by decide, by decide⟩ (by decide) hzone hmoment.toProper (by decide) rfl rfl
  have hplain : moment.Spelling plain.toList := by
    have htext : plain.toList = moment.date.text ++ Calendar.Separator.blanks.char :: moment.clock ++
        moment.secondText 3 := by decide +kernel
    rw [htext]
    exact .seconds hmoment ⟨by decide, by decide⟩ .blanks
  have hday : (Moment.midnight ⟨2024, 2, 29⟩).Spelling "2024-02-29".toList := by
    have htext : "2024-02-29".toList = Calendar.Date.text ⟨2024, 2, 29⟩ := by decide +kernel
    rw [htext]
    exact .day ⟨⟨by decide, by decide, by decide, by decide⟩, by decide, by decide⟩ rfl
  have hrelated : schema.Related Scalar.SameMoment record other := by
    have hseen : Scalar.SameMoment .optionalDateTime (some (.string ahead)) (some (.string plain)) :=
      .spelled (by decide) hahead hplain
    have hat : Scalar.SameMoment .dateTime (some (.string plain)) (some (.string ahead)) :=
      .spelled (by decide) hplain hahead
    exact ⟨hseen, .cons ⟨hat, trivial⟩ .nil, trivial⟩
  have hrefl : ∀ third, schema.Related Scalar.SameMoment third third := fun third =>
    related_refl (fun _ value => .same value) third schema
  obtain ⟨-, hunique, hread, hliteral, hfilter, hsort⟩ := query_moments schema
  obtain ⟨p, hp⟩ : ∃ p, Filter.compile (registry schema) 1
      "Seen lessThan 2024-01-01 and Visits any (At greaterThan 2023-01-01)" = .ok p :=
    exists_ok_iff_outcome.mpr (by decide +kernel)
  obtain ⟨c, hc⟩ : ∃ c, Sorting.compile (registry schema) "Seen desc" = .ok c :=
    exists_ok_iff_outcome.mpr (by decide +kernel)
  have hclause := hliteral "Seen" .optionalDateTime (by decide) rfl moment
  obtain ⟨less, hless, hholds⟩ := (hclause plain hplain "lessThan" (.ofLimit 0)).2 .lessThan rfl
  refine ⟨hwritten, hzone, hunique written 330 hwritten (by decide), hread moment _ hahead, hread moment _ hplain,
    hread _ _ hday, (hclause ahead hahead "equals" (.ofLimit 0)).1 plain hplain, ⟨less, hless, ?_⟩,
    ⟨p, hp, hfilter 1 _ p hp _ _ hrelated⟩, c, hc, fun third => hsort _ c hc _ _ _ _ hrelated (hrefl third)⟩
  rw [hholds moment ahead record hahead rfl]
  decide

end Schema

end RecordQuery
