import RecordQuery.Proofs.Record.Normal

/-!
Records that a schema reads alike. A relation of what may stand under the names of scalar fields carries over to
records: their scalar fields have related members, and their relations have related records, one by one. If related
members are read as the same value, no query over the schema tells related records apart.
-/
namespace RecordQuery

variable (R : Scalar → Option Json → Option Json → Prop)

mutual

/-- Two records are related in what stands under the name of a field. -/
def Spec.Related (name : String) : Spec → Json → Json → Prop
  | .scalar type, a, b => R type (a.get? name) (b.get? name)
  | .relation fields, a, b => List.Forall₂ (Schema.Related fields) (Json.items name a) (Json.items name b)

/-- Two records are related in all fields of a schema. -/
def Schema.Related : Schema → Json → Json → Prop
  | ⟨entries⟩, a, b => Schema.EntriesRelated entries a b

def Schema.EntriesRelated : List (String × Spec) → Json → Json → Prop
  | [], _, _ => True
  | (name, spec) :: entries, a, b => spec.Related name a b ∧ Schema.EntriesRelated entries a b

end

variable {R}

mutual

theorem Spec.related_refl (hR : ∀ type value, R type value value) (name : String) (record : Json) :
    ∀ spec : Spec, spec.Related R name record record
  | .scalar type => hR type (record.get? name)
  | .relation fields => by
    rw [Spec.Related, List.forall₂_same]
    exact fun item _ => Schema.related_refl hR item fields

theorem Schema.related_refl (hR : ∀ type value, R type value value) (record : Json) :
    ∀ schema : Schema, schema.Related R record record
  | ⟨entries⟩ => Schema.entriesRelated_refl hR record entries

theorem Schema.entriesRelated_refl (hR : ∀ type value, R type value value) (record : Json) :
    ∀ entries, Schema.EntriesRelated R entries record record
  | [] => trivial
  | (name, spec) :: entries => ⟨Spec.related_refl hR name record spec, Schema.entriesRelated_refl hR record entries⟩

end

namespace Schema

variable {a b : Json}

theorem entriesRelated_iff {entries : List (String × Spec)} :
    EntriesRelated R entries a b ↔ ∀ entry ∈ entries, entry.2.Related R entry.1 a b := by
  induction entries with
  | nil => simp [EntriesRelated]
  | cons entry entries ih =>
    obtain ⟨name, spec⟩ := entry
    rw [EntriesRelated, ih, List.forall_mem_cons]

theorem related_of_get? {schema : Schema} {name : String} {spec : Spec} (h : schema.Related R a b)
    (hget : schema.get? name = some spec) : spec.Related R name a b := by
  obtain ⟨entries⟩ := schema
  exact entriesRelated_iff.mp h _ (Table.mem_of_lookup_eq_some hget)

/-- The registry is that of a schema under which the records are related. -/
def RelatedBy (R : Scalar → Option Json → Option Json → Prop) (registry : Registry Json) (a b : Json) : Prop :=
  ∃ schema : Schema, registry = Schema.registry schema ∧ schema.Related R a b

variable (hR : ∀ type u v, R type u v → u.bind type.ofJson? = v.bind type.ofJson?)

include hR

theorem bisimulation_relatedBy : Bisimulation (RelatedBy R) where
  scalar := by
    rintro _ a b name type read ⟨schema, rfl, hrelated⟩ hget
    rw [get?_registry] at hget
    obtain ⟨spec, hspec, hfield⟩ := Option.map_eq_some_iff.mp hget
    have hmember := related_of_get? hrelated hspec
    cases spec with
    | relation fields => cases hfield
    | scalar type' =>
      cases hfield
      exact congrArg (fun value => type.value? (type.cell value)) (hR type _ _ hmember)
  relation := by
    rintro _ related a b name children ⟨schema, rfl, hrelated⟩ hget
    rw [get?_registry] at hget
    obtain ⟨spec, hspec, hfield⟩ := Option.map_eq_some_iff.mp hget
    have hitems := related_of_get? hrelated hspec
    cases spec with
    | scalar type => cases hfield
    | relation fields =>
      cases hfield
      rw [Spec.Related] at hitems
      exact hitems.imp fun _ _ hitem => ⟨fields, rfl, hitem⟩

/-- Every filter passes both of two related records or neither, and every comparator puts related pairs in one order. -/
theorem query_related (schema : Schema) :
    (∀ limit text p, Filter.compile (registry schema) limit text = .ok p →
      ∀ a b, schema.Related R a b → p a = p b) ∧
    ∀ text c, Sorting.compile (registry schema) text = .ok c →
      ∀ a a' b b', schema.Related R a a' → schema.Related R b b' → c a b = c a' b' := by
  have hrelated : ∀ {a b}, schema.Related R a b → RelatedBy R (registry schema) a b := fun h => ⟨schema, rfl, h⟩
  constructor
  · intro limit text p hp a b hab
    exact (Filter.compile_definable hp).congr (bisimulation_relatedBy hR) (hrelated hab)
  · intro text c hc a a' b b' ha hb
    exact (Sorting.compile_definable hc).congr (bisimulation_relatedBy hR) (hrelated ha) (hrelated hb)

end Schema

end RecordQuery
