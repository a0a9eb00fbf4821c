import RecordQuery.Proofs.Record.Bisimulation
import RecordQuery.Proofs.Table

/-!
Registries that fields are registered in, one after the other. A registration hides the one before it under its name
for good: lookups, the listing of fields, their count, and the filters and orderings that are compiled over the
registry know the last registration of each name only, whatever else the run has held and in whatever order.
-/
namespace RecordQuery

variable {ρ : Type}

/-! ## The order of names -/

def codePoints (name : String) : List ℕ :=
  name.toList.map Char.toNat

theorem codePoints_lt_of_compare {a b : String} (h : compare a b = .lt) : codePoints a < codePoints b :=
  List.map_lt (fun _ _ hlt => hlt) (String.lt_iff.mp (compareOfLessAndEq_eq_lt.mp h))

namespace Registry

/-- A listing goes up by name, as the entries do. -/
theorem fields_pairwise {registry : Registry ρ} (h : Table.Ordered registry.entries) :
    (Registry.fields registry).Pairwise fun a b => codePoints a.1 < codePoints b.1 :=
  h.map _ fun _ _ hlt => codePoints_lt_of_compare hlt

theorem mem_fields_iff {registry : Registry ρ} (h : Table.Ordered registry.entries) {name : String} {type : FieldType} :
    (name, type) ∈ Registry.fields registry ↔ ∃ field, registry.get? name = some field ∧ field.type = type := by
  rw [fields, List.mem_map]
  constructor
  · rintro ⟨⟨_, field⟩, hentry, heq⟩
    obtain ⟨rfl, rfl⟩ := Prod.mk.inj heq
    exact ⟨field, Table.lookup_eq_some_of_mem h.nodup hentry, rfl⟩
  · rintro ⟨field, hget, rfl⟩
    exact ⟨(name, field), Table.mem_of_lookup_eq_some hget, rfl⟩

end Registry

/-! ## Records that read alike -/

/-- The accessor of the field gives the same for two records. -/
def Field.ReadsAlike (a b : ρ) : Field ρ → Prop
  | scalar _ read => read a = read b
  | relation children _ => children a = children b

/-- Records of which all fields of a registry read alike. Their related records are the same ones. -/
def Registry.ReadsAlike (registry : Registry ρ) (a b : ρ) : Prop :=
  ∀ name field, registry.get? name = some field → field.ReadsAlike a b

theorem Registry.readsAlike_refl (registry : Registry ρ) (a : ρ) : Registry.ReadsAlike registry a a := by
  intro name field _
  cases field <;> rfl

theorem Registry.bisimulation_readsAlike : Bisimulation (@Registry.ReadsAlike ρ) where
  scalar h hget := congrArg _ (h _ _ hget)
  relation {_ _ a b _ children} h hget := by
    have hchildren : children a = children b := h _ _ hget
    rw [hchildren]
    exact List.forall₂_same.mpr fun record _ => Registry.readsAlike_refl _ record

/-! ## Runs of registrations -/

theorem Sorting.Key.comparator_congr {registry registry' : Registry ρ} {key : Sorting.Key}
    (h : registry.get? key.field = registry'.get? key.field) : key.comparator registry = key.comparator registry' := by
  rw [Sorting.Key.comparator, Sorting.Key.comparator, h]

/-- Fields are registered one after the other, under any names, in a registry that is empty at first. What the registry
then shows of a name is its last registration: in lookups, in the listing, which goes up by code points, and in clauses
and keys, which mean what they mean where nothing else is registered. Another run with the same last registrations makes
the same registry. So no filter and no ordering tells records apart that the last accessors read alike. -/
theorem Registry.last_registration (registrations : List (String × Field ρ)) :
    let registry : Registry ρ := Table.ofList registrations
    let last := Table.Last registrations
    ((∀ name field, registry.get? name = some field ↔ last name field) ∧
      ∀ name, registry.get? name = none ↔ ∀ registration ∈ registrations, registration.1 ≠ name) ∧
    ((Registry.fields registry).Pairwise (fun a b => codePoints a.1 < codePoints b.1) ∧
      ∀ name type, (name, type) ∈ Registry.fields registry ↔ ∃ field, last name field ∧ field.type = type) ∧
    (registry.size = (registrations.map (·.1)).toFinset.card ∧ (registry.isEmpty = true ↔ registry.size = 0)) ∧
    (∀ name field, last name field →
      let alone : Registry ρ := ⟨[(name, field)]⟩
      (∀ (nesting : Nesting) (c : Filter.Clause), c.field = name →
        Filter.compileClause registry nesting c = Filter.compileClause alone nesting c) ∧
      ∀ key : Sorting.Key, key.field = name → key.comparator registry = key.comparator alone) ∧
    (∀ registrations', (∀ name field, Table.Last registrations' name field ↔ last name field) →
      Table.ofList registrations' = registry) ∧
    ∀ a b : ρ, (∀ name field, last name field → field.ReadsAlike a b) →
      (∀ limit text p, Filter.compile registry limit text = .ok p → p a = p b) ∧
      ∀ text c, Sorting.compile registry text = .ok c → ∀ other, c a other = c b other ∧ c other a = c other b := by
  intro registry last
  have hget : ∀ name field, registry.get? name = some field ↔ last name field :=
    fun _ _ => Table.get?_ofList_eq_some_iff
  have hordered : Table.Ordered registry.entries := Table.ordered_ofList registrations
  refine ⟨⟨hget, fun _ => Table.get?_ofList_eq_none_iff⟩,
    ⟨Registry.fields_pairwise hordered, fun name type => ?_⟩,
    ⟨Table.size_ofList registrations, ?_⟩, fun name field hlast => ?_, fun registrations' hsame => ?_,
    fun a b hread => ?_⟩
  · simp only [Registry.mem_fields_iff hordered, hget]
  · rw [Table.isEmpty, List.isEmpty_iff, Table.size, List.length_eq_zero_iff]
  · intro alone
    have halone : registry.get? name = alone.get? name := by
      rw [(hget name field).mpr hlast]
      exact ((Table.lookup_cons ..).trans (if_pos rfl)).symm
    refine ⟨fun nesting c hc => ?_, fun key hkey => ?_⟩
    · exact Filter.compileClause_congr (by rwa [hc]) nesting
    · exact Sorting.Key.comparator_congr (by rwa [hkey])
  · refine (Table.ordered_ofList registrations').ext hordered fun name => Option.ext fun field => ?_
    rw [Table.get?_ofList_eq_some_iff, hsame, hget]
  · have hAlike : Bisimulation (@Registry.ReadsAlike ρ) := Registry.bisimulation_readsAlike
    have hab : Registry.ReadsAlike registry a b := fun name field h => hread name field ((hget name field).mp h)
    refine ⟨fun limit text p h => ?_, fun text c h other => ?_⟩
    · exact (Filter.compile_definable h).congr hAlike hab
    · have hother := Registry.readsAlike_refl registry other
      have hc := Sorting.compile_definable h
      exact ⟨hc.congr hAlike hab hother, hc.congr hAlike hother hab⟩

/-- A relation gives way to a number, and a text to a number that may be missing. What the text told apart is alike from
then on. -/
theorem Registry.last_registration_doubled :
    let words : Registry String := ⟨[("Text", .scalar .string id)]⟩
    let size : Field String := .scalar .int fun text => text.length
    let doubled : Field String := .scalar .optionalInt fun text => some (2 * text.length)
    let registrations := [("Size", Field.relation (fun text => text.splitOn " ") words), ("Text", .scalar .string id),
      ("Size", size), ("Text", doubled)]
    let registry : Registry String := Table.ofList registrations
    let c : Filter.Clause := ⟨"Text", "equals", .literal "4"⟩
    let query := "Text greaterThan 3 and Size equals 2"
    registry.get? "Text" = some doubled ∧ registry.size = 2 ∧
      Filter.compileClause registry (.ofLimit 0) c = Filter.compileClause ⟨[("Text", doubled)]⟩ (.ofLimit 0) c ∧
      Table.ofList [("Text", doubled), ("Size", size)] = registry ∧
      ∃ p, Filter.compile registry 0 query = .ok p ∧ p "ab" = p "ba" := by
  intro words size doubled registrations registry c query
  have hlast : Table.Last registrations "Text" doubled := ⟨registrations.take 3, [], rfl, by simp⟩
  have hlookup : ∀ name, registry.get? name =
      if name = "Text" then some doubled else if name = "Size" then some size else none := by
    intro name
    rw [Table.get?_ofList]
    grind [Table.lookup_cons]
  have hturned : ∀ name field, Table.Last [("Text", doubled), ("Size", size)] name field ↔
      Table.Last registrations name field := by
    intro name field
    rw [← Table.get?_ofList_eq_some_iff, ← Table.get?_ofList_eq_some_iff, hlookup, Table.get?_ofList]
    grind [Table.lookup_cons]
  have hread : ∀ name field, Table.Last registrations name field → field.ReadsAlike "ab" "ba" := by
    intro name field h
    rw [← Table.get?_ofList_eq_some_iff, hlookup] at h
    split_ifs at h <;> obtain rfl := Option.some.inj h <;> rfl
  have hok : outcome (Filter.compile registry 0 query) = .ok () := by decide +kernel
  obtain ⟨p, hp⟩ := exists_ok_iff_outcome.mpr hok
  obtain ⟨⟨hget, -⟩, -, ⟨hsize, -⟩, halone, hsame, halike⟩ := last_registration registrations
  refine ⟨(hget _ _).mpr hlast, hsize.trans (by decide), ?_, hsame _ hturned, p, hp, ?_⟩
  · exact (halone _ _ hlast).1 _ c rfl
  · exact (halike _ _ hread).1 _ _ _ hp

end RecordQuery
