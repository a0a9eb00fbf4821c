import RecordQuery.Table
import Mathlib.Data.Finset.Card
import Mathlib.Data.List.Nodup

/-!
Tables keep their entries in the order of their names, so that each name stands there once. A table that is made of a
list holds the last entry of the list under each name, and nothing else; whatever order the names come in, there is one
table for it.
-/
namespace RecordQuery.Table

variable {α : Type} {name : String} {value : α} {entries : List (String × α)}

/-- The names go up. -/
def Ordered (entries : List (String × α)) : Prop :=
  entries.Pairwise fun a b => compare a.1 b.1 = .lt

theorem mem_insertEntry {entry : String × α} (h : entry ∈ insertEntry name value entries) :
    entry = (name, value) ∨ entry ∈ entries := by
  induction entries with
  | nil => exact .inl (List.mem_singleton.mp h)
  | cons first rest ih =>
    unfold insertEntry at h
    split at h
    · exact List.mem_cons.mp h
    · rcases List.mem_cons.mp h with h | h
      · exact .inl h
      · exact .inr (List.mem_cons_of_mem first h)
    · rcases List.mem_cons.mp h with rfl | h
      · exact .inr List.mem_cons_self
      · exact (ih h).imp_right (List.mem_cons_of_mem first)

/-- The new entry goes in front of the names above it, behind those below it, and in the place of its own. -/
theorem Ordered.insertEntry (h : Ordered entries) : Ordered (insertEntry name value entries) := by
  induction entries with
  | nil => exact List.pairwise_singleton _ _
  | cons first rest ih =>
    obtain ⟨hfirst, hrest⟩ := List.pairwise_cons.mp h
    unfold Table.insertEntry
    split
    · rename_i hlt
      refine List.pairwise_cons.mpr ⟨fun entry hentry => ?_, h⟩
      rcases List.mem_cons.mp hentry with rfl | hentry
      · exact hlt
      · exact Std.TransCmp.lt_trans hlt (hfirst entry hentry)
    · rename_i heq
      obtain rfl : name = first.1 := Std.LawfulEqCmp.eq_of_compare heq
      exact List.pairwise_cons.mpr ⟨hfirst, hrest⟩
    · rename_i hgt
      refine List.pairwise_cons.mpr ⟨fun entry hentry => ?_, ih hrest⟩
      rcases mem_insertEntry hentry with rfl | hentry
      · exact Std.OrientedCmp.lt_of_gt hgt
      · exact hfirst entry hentry

theorem Ordered.nodup (h : Ordered entries) : (entries.map (·.1)).Nodup := by
  refine List.Pairwise.map _ ?_ h
  rintro a b hlt heq
  rw [heq] at hlt
  simp at hlt

/-- What comes last in a run of entries is inserted last, so that facts about tables go by induction from its end. -/
theorem ofList_concat (entries : List (String × α)) (entry : String × α) :
    ofList (entries ++ [entry]) = (ofList entries).insert entry.1 entry.2 := by
  rw [ofList, List.foldl_append]
  rfl

theorem ordered_ofList (entries : List (String × α)) : Ordered (ofList entries).entries := by
  induction entries using List.reverseRecOn with
  | nil => exact List.Pairwise.nil
  | append_singleton entries entry ih =>
    rw [ofList_concat]
    exact ih.insertEntry

theorem mem_ofList {entry : String × α} (h : entry ∈ (ofList entries).entries) : entry ∈ entries := by
  induction entries using List.reverseRecOn with
  | nil => cases h
  | append_singleton entries last ih =>
    rw [ofList_concat] at h
    rcases mem_insertEntry h with rfl | h
    · exact List.mem_append_right entries List.mem_cons_self
    · exact List.mem_append_left [last] (ih h)

/-- A name behind all others is put at the end. -/
theorem insertEntry_of_gt (h : ∀ entry ∈ entries, compare name entry.1 = .gt) :
    insertEntry name value entries = entries ++ [(name, value)] := by
  induction entries with
  | nil => rfl
  | cons first rest ih =>
    obtain ⟨hfirst, hrest⟩ := List.forall_mem_cons.mp h
    rw [insertEntry, hfirst]
    exact congrArg (first :: ·) (ih hrest)

/-- Entries in the order of their names are a table as they stand. -/
theorem Ordered.ofList_eq (h : Ordered entries) : ofList entries = ⟨entries⟩ := by
  have hfold : ∀ behind before : List (String × α), Ordered (before ++ behind) →
      behind.foldl (fun t entry => t.insert entry.1 entry.2) (⟨before⟩ : Table α) = ⟨before ++ behind⟩ := by
    intro behind
    induction behind with
    | nil => simp
    | cons entry behind ih =>
      intro before hordered
      have hgt : ∀ other ∈ before, compare entry.1 other.1 = .gt := fun other hother =>
        Std.OrientedCmp.gt_of_lt ((List.pairwise_append.mp hordered).2.2 other hother entry List.mem_cons_self)
      have hinsert : Table.insert ⟨before⟩ entry.1 entry.2 = ⟨before ++ [entry]⟩ :=
        congrArg Table.mk (insertEntry_of_gt hgt)
      rw [List.foldl_cons, hinsert, ih _ (by simpa using hordered), List.append_assoc, List.singleton_append]
  exact hfold entries [] h

/-! ## Lookups -/

theorem get?_eq_none_iff {t : Table α} : t.get? name = none ↔ name ∉ t.names := by
  rw [get?, List.lookup_eq_none_iff, names, List.mem_map, not_exists]
  simp only [bne_iff_ne, not_and]
  exact forall₂_congr fun entry _ => ne_comm

theorem isSome_get?_iff {t : Table α} : (t.get? name).isSome = true ↔ name ∈ t.names := by
  rw [Option.isSome_iff_ne_none, ne_eq, get?_eq_none_iff, not_not]

/-- Values that are made of the names and the values of other entries. -/
theorem lookup_map {β : Type} (f : String → α → β) (entries : List (String × α)) (name : String) :
    (entries.map fun entry => (entry.1, f entry.1 entry.2)).lookup name = (entries.lookup name).map (f name) := by
  induction entries with
  | nil => rfl
  | cons entry entries ih =>
    obtain ⟨key, value⟩ := entry
    rw [List.map_cons, lookup_cons, lookup_cons, ih]
    split
    · rename_i heq
      rw [heq]
      rfl
    · rfl

theorem lookup_eq_some_of_mem (h : (entries.map (·.1)).Nodup) (hmem : (name, value) ∈ entries) :
    entries.lookup name = some value := by
  induction entries with
  | nil => cases hmem
  | cons entry entries ih =>
    obtain ⟨hnot, hnodup⟩ := List.nodup_cons.mp h
    rw [lookup_cons]
    rcases List.mem_cons.mp hmem with rfl | hmem
    · exact if_pos rfl
    · have hne : name ≠ entry.1 := by
        rintro rfl
        exact hnot (List.mem_map.mpr ⟨_, hmem, rfl⟩)
      rw [if_neg hne]
      exact ih hnodup hmem

theorem mem_of_lookup_eq_some (h : entries.lookup name = some value) : (name, value) ∈ entries := by
  obtain ⟨before, behind, rfl, -⟩ := List.lookup_eq_some_iff.mp h
  simp

/-- Where each name stands once, the first entry of a name is the last one. -/
theorem lookup_reverse (h : (entries.map (·.1)).Nodup) (name : String) :
    entries.reverse.lookup name = entries.lookup name := by
  have hreverse : (entries.reverse.map (·.1)).Nodup := by
    rw [List.map_reverse]
    exact List.nodup_reverse.mpr h
  refine Option.ext fun value => ⟨fun hvalue => ?_, fun hvalue => ?_⟩
  · exact lookup_eq_some_of_mem h (List.mem_reverse.mp (mem_of_lookup_eq_some hvalue))
  · exact lookup_eq_some_of_mem hreverse (List.mem_reverse.mpr (mem_of_lookup_eq_some hvalue))

/-- Tables in order that hold the same under every name are one table. -/
theorem Ordered.ext {t t' : Table α} (h : Ordered t.entries) (h' : Ordered t'.entries)
    (hget : ∀ name, t.get? name = t'.get? name) : t = t' := by
  have hmem : ∀ entry, entry ∈ t.entries ↔ entry ∈ t'.entries := by
    refine fun entry => ⟨fun hentry => ?_, fun hentry => ?_⟩
    · exact mem_of_lookup_eq_some ((hget entry.1).symm.trans (lookup_eq_some_of_mem h.nodup hentry))
    · exact mem_of_lookup_eq_some ((hget entry.1).trans (lookup_eq_some_of_mem h'.nodup hentry))
  have hperm : t.entries.Perm t'.entries :=
    (List.perm_ext_iff_of_nodup h.nodup.of_map h'.nodup.of_map).mpr hmem
  have hentries : t.entries = t'.entries := by
    refine hperm.eq_of_pairwise (fun a b _ _ hab hba => ?_) h h'
    exact absurd hba (Std.OrientedCmp.not_lt_of_lt hab)
  exact congrArg Table.mk hentries

/-! ## Runs of insertions -/

/-- The value is the last one that a run of entries has under a name. -/
def Last (entries : List (String × α)) (name : String) (value : α) : Prop :=
  ∃ before behind, entries = before ++ (name, value) :: behind ∧ ∀ entry ∈ behind, entry.1 ≠ name

/-- Each insertion hides what the ones before it have put under its name. -/
theorem get?_ofList (entries : List (String × α)) (name : String) :
    (ofList entries).get? name = entries.reverse.lookup name := by
  induction entries using List.reverseRecOn with
  | nil => rfl
  | append_singleton entries entry ih =>
    obtain ⟨key, value⟩ := entry
    rw [ofList_concat, get?_insert, ih, List.reverse_append, List.reverse_singleton, List.singleton_append, lookup_cons]

theorem get?_ofList_eq_some_iff : (ofList entries).get? name = some value ↔ Last entries name value := by
  rw [get?_ofList, List.lookup_eq_some_iff]
  constructor
  · rintro ⟨behind, before, hreverse, hbehind⟩
    refine ⟨before.reverse, behind.reverse, ?_, fun entry hentry => ?_⟩
    · simpa using congrArg List.reverse hreverse
    · exact (bne_iff_ne.mp (hbehind entry (List.mem_reverse.mp hentry))).symm
  · rintro ⟨before, behind, rfl, hbehind⟩
    refine ⟨behind.reverse, before.reverse, by simp, fun entry hentry => ?_⟩
    exact bne_iff_ne.mpr (hbehind entry (List.mem_reverse.mp hentry)).symm

theorem get?_ofList_eq_none_iff : (ofList entries).get? name = none ↔ ∀ entry ∈ entries, entry.1 ≠ name := by
  rw [get?_ofList, List.lookup_eq_none_iff]
  simp [ne_comm]

theorem mem_names_ofList : name ∈ (ofList entries).names ↔ name ∈ entries.map (·.1) := by
  rw [← not_iff_not, ← get?_eq_none_iff, get?_ofList_eq_none_iff, List.mem_map, not_exists]
  exact forall_congr' fun entry => not_and.symm

/-- There is one entry for each name of the run. -/
theorem size_ofList (entries : List (String × α)) : (ofList entries).size = (entries.map (·.1)).toFinset.card := by
  have hnames : (entries.map (·.1)).toFinset = (ofList entries).names.toFinset := by
    ext name
    rw [List.mem_toFinset, List.mem_toFinset, mem_names_ofList]
  have hnodup : (ofList entries).names.Nodup := (ordered_ofList entries).nodup
  rw [hnames, List.toFinset_card_of_nodup hnodup, names, List.length_map, size]

end RecordQuery.Table
