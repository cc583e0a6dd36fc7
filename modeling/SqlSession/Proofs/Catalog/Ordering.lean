import SqlSession.Proofs.Catalog.Registering
import SqlSession.Proofs.Keyed

/-!
# The order of the rows of a catalog

If every array stands behind the row of its element, then what the rows of a catalog describe can be said
without their places (`TypeMap.Made`), so that the same rows in another such order have the same types.
Rows that add nothing can stand anywhere between the others (`TypeMap.ofRows_of_interspersed`).
-/

namespace SqlSession

open Effect

namespace TypeMap

/-- Every array stands behind the row of its element, if there is one. -/
def ElementsFirst (rows : List CatalogRow) : Prop :=
  ∀ i j : Fin rows.length, rows[i].kind = 'a' → rows[i].element = some rows[j].oid → j < i

instance (rows : List CatalogRow) : Decidable (ElementsFirst rows) :=
  inferInstanceAs (Decidable (∀ i j : Fin rows.length,
    rows[i].kind = 'a' → rows[i].element = some rows[j].oid → j < i))

/-- The type is that of a row among these, and so are the types that it is made of. -/
inductive Made (rows : List CatalogRow) : TypeDescriptor → Prop
  | base {row : CatalogRow} (mem : row ∈ rows) (kind : row.kind = 'b' ∨ row.kind = 'p') :
      Made rows (.base row.identity)
  | array {row : CatalogRow} {t : TypeDescriptor} (mem : row ∈ rows) (kind : row.kind = 'a')
      (element : row.element = some t.oid) (made : Made rows t) : Made rows (.array row.identity t)

/-- The row adds nothing wherever it stands among these: it is of a kind that a column cannot have, or of
an array whose element is in none of them. -/
def Idle (rows : List CatalogRow) (row : CatalogRow) : Prop :=
  row.kind ∈ ['r', 'm', 'e', 'c', 'd'] ∨
    row.kind = 'a' ∧ ∀ other ∈ rows, row.element ≠ some other.oid

/-- The longer list has such rows put in anywhere between the rows of the shorter one. -/
inductive Interspersed (extra : CatalogRow → Prop) : List CatalogRow → List CatalogRow → Prop
  | nil : Interspersed extra [] []
  | keep {row : CatalogRow} {rows longer : List CatalogRow} (others : Interspersed extra rows longer) :
      Interspersed extra (row :: rows) (row :: longer)
  | put {row : CatalogRow} {rows longer : List CatalogRow} (is_extra : extra row)
      (others : Interspersed extra rows longer) : Interspersed extra rows (row :: longer)

variable {rows other longer : List CatalogRow} {row : CatalogRow} {t : TypeDescriptor} {m m' : TypeMap}

/-! ## Types without places -/

theorem Made.mono (h : Made rows t) (hrows : rows ⊆ other) : Made other t := by
  induction h with
  | base mem kind => exact .base (hrows mem) kind
  | array mem kind element made ih => exact .array (hrows mem) kind element ih

theorem Describes.made {i : Nat} (h : Describes rows i t) : Made rows t := by
  induction h with
  | base row_eq kind => exact .base (List.mem_of_getElem? row_eq) kind
  | array row_eq kind earlier element describes ih =>
    exact .array (List.mem_of_getElem? row_eq) kind element ih

/-- A type that is made of rows is described at the place of its own row, which is behind that of its
element. -/
theorem Made.describes (h : Made rows t) (hfirst : ElementsFirst rows) : ∃ i, Describes rows i t := by
  induction h with
  | base mem kind =>
    obtain ⟨i, row_eq⟩ := List.mem_iff_getElem?.mp mem
    exact ⟨i, .base row_eq kind⟩
  | @array row t mem kind element made ih =>
    obtain ⟨j, hdescribes⟩ := ih
    obtain ⟨before, before_eq, -⟩ := hdescribes.identity_eq
    obtain ⟨i, row_eq⟩ := List.mem_iff_getElem?.mp mem
    obtain ⟨hi, hrow⟩ := List.getElem?_eq_some_iff.mp row_eq
    obtain ⟨hj, hbefore⟩ := List.getElem?_eq_some_iff.mp before_eq
    have hkind : rows[i].kind = 'a' := by rw [hrow, kind]
    have helement : rows[i].element = some rows[j].oid := by
      rw [hrow, hbefore, element, hdescribes.oid_eq before_eq]
    have hearlier : j < i := hfirst ⟨i, hi⟩ ⟨j, hj⟩ hkind helement
    exact ⟨i, .array row_eq kind hearlier element hdescribes⟩

/-- If elements stand in front, the types of a catalog are those that are made of its rows. -/
theorem find?_ofRows_iff_made (hdistinct : (rows.map CatalogRow.oid).Nodup)
    (hkinds : ∀ row ∈ rows, row.kind ∈ kinds) (hfirst : ElementsFirst rows) :
    ∃ m, ofRows rows = .ok m ∧ ∀ oid t, m.find? oid = some t ↔ Made rows t ∧ t.oid = oid := by
  obtain ⟨m, hm, hfind⟩ := find?_ofRows hdistinct hkinds
  refine ⟨m, hm, fun oid t => (hfind oid t).trans ?_⟩
  constructor
  · rintro ⟨i, hdescribes, hoid⟩
    exact ⟨hdescribes.made, hoid⟩
  · rintro ⟨hmade, hoid⟩
    obtain ⟨i, hdescribes⟩ := hmade.describes hfirst
    exact ⟨i, hdescribes, hoid⟩

/-! ## Types by their identifiers -/

theorem ascending_addRow (h : Keyed.Ascending m) (hrow : m.addRow row = .ok m') :
    Keyed.Ascending m' := by
  rw [addRow_eq] at hrow
  split at hrow
  · cases hrow
    cases m.added? row with
    | none => exact h
    | some t => exact h.insert t.oid t
  · cases hrow

theorem ascending_ofRows (h : ofRows rows = .ok m) : Keyed.Ascending m :=
  check_foldlM_keeps ascending_addRow List.Pairwise.nil h

/-- What rows have as types does not depend on where the rows stand, as long as elements stand in
front. -/
theorem ofRows_of_perm (hperm : rows.Perm other) (hdistinct : (rows.map CatalogRow.oid).Nodup)
    (hkinds : ∀ row ∈ rows, row.kind ∈ kinds) (hfirst : ElementsFirst rows)
    (hfirst' : ElementsFirst other) : ∃ m, ofRows rows = .ok m ∧ ofRows other = .ok m := by
  have hdistinct' : (other.map CatalogRow.oid).Nodup := (hperm.map _).nodup hdistinct
  have hkinds' : ∀ row ∈ other, row.kind ∈ kinds := fun row hrow => hkinds row (hperm.mem_iff.mpr hrow)
  obtain ⟨m, hm, hfind⟩ := find?_ofRows_iff_made hdistinct hkinds hfirst
  obtain ⟨m', hm', hfind'⟩ := find?_ofRows_iff_made hdistinct' hkinds' hfirst'
  have hmade : ∀ t, Made rows t ↔ Made other t := fun t =>
    ⟨fun h => h.mono hperm.subset, fun h => h.mono hperm.symm.subset⟩
  have hsame : ∀ oid, m.find? oid = m'.find? oid := by
    intro oid
    refine Option.ext fun t => ?_
    rw [hfind, hfind', hmade]
  obtain rfl : m = m' := (ascending_ofRows hm).ext (ascending_ofRows hm') hsame
  exact ⟨m, hm, hm'⟩

/-! ## Rows that add nothing -/

/-- All types stand under identifiers of these rows. -/
def Covered (rows : List CatalogRow) (m : TypeMap) : Prop :=
  ∀ oid t, m.find? oid = some t → ∃ row ∈ rows, row.oid = oid

theorem oid_of_added? (h : m.added? row = some t) : t.oid = row.oid := by
  unfold added? at h
  split at h
  · cases h
    rfl
  · split at h
    · obtain ⟨element, -, rfl⟩ := Option.map_eq_some_iff.mp h
      rfl
    · cases h

theorem Covered.addRow (hm : Covered rows m) (hrow : row ∈ rows) (hadd : m.addRow row = .ok m') :
    Covered rows m' := by
  rw [addRow_eq] at hadd
  split at hadd
  · cases hadd
    cases hadded : m.added? row with
    | none => exact hm
    | some t =>
      intro oid u hu
      by_cases hoid : oid = t.oid
      · exact ⟨row, hrow, by rw [hoid, oid_of_added? hadded]⟩
      · rw [find?_add_of_ne hoid] at hu
        exact hm oid u hu
  · cases hadd

theorem addRow_of_idle (hidle : Idle rows row) (hm : Covered rows m) : m.addRow row = .ok m := by
  have hnone : row.kind ∈ kinds ∧ m.added? row = none := by
    unfold added?
    obtain hkind | ⟨hkind, helement⟩ := hidle
    · simp only [List.mem_cons, List.not_mem_nil, or_false] at hkind
      obtain hkind | hkind | hkind | hkind | hkind := hkind
      all_goals rw [hkind]; exact ⟨by decide, rfl⟩
    · rw [hkind]
      refine ⟨by decide, ?_⟩
      cases hfind : row.element.bind m.find? with
      | none => rfl
      | some t =>
        obtain ⟨oid, hoid, ht⟩ := Option.bind_eq_some_iff.mp hfind
        obtain ⟨other, hother, rfl⟩ := hm oid t ht
        exact absurd hoid (helement other hother)
  rw [addRow_eq, if_pos hnone.1, hnone.2]

theorem foldlM_addRow_of_interspersed {all : List CatalogRow}
    (h : Interspersed (Idle all) rows longer) (hrows : rows ⊆ all) (hm : Covered all m) :
    longer.foldlM addRow m = rows.foldlM addRow m := by
  induction h generalizing m with
  | nil => rfl
  | @keep row rows longer others ih =>
    obtain ⟨hrow, hrows⟩ := List.cons_subset.mp hrows
    rw [List.foldlM_cons, List.foldlM_cons]
    cases hadd : m.addRow row with
    | error err => rfl
    | ok m₁ => exact ih hrows (hm.addRow hrow hadd)
  | put is_extra others ih =>
    rw [List.foldlM_cons, addRow_of_idle is_extra hm]
    exact ih hrows hm

theorem ofRows_of_interspersed (h : Interspersed (Idle rows) rows longer) :
    ofRows longer = ofRows rows :=
  foldlM_addRow_of_interspersed h (List.Subset.refl rows) nofun

/-! ## Order -/

/-- Rows with known kinds, no two of them with the same identifier, have the same types in any two orders in
which every array stands behind the row of its element.  Rows of ranges, multiranges, enumerations,
composites and domains and of arrays of something that is in no row can be put in anywhere, whatever their
identifiers are. -/
theorem ofRows_in_order (rows : List CatalogRow) :
    (∀ other, rows.Perm other → (rows.map CatalogRow.oid).Nodup → (∀ row ∈ rows, row.kind ∈ kinds) →
      ElementsFirst rows → ElementsFirst other →
      ∃ m, ofRows rows = .ok m ∧ ofRows other = .ok m) ∧
    ∀ longer, Interspersed (Idle rows) rows longer → ofRows longer = ofRows rows :=
  ⟨fun _ hperm hdistinct hkinds hfirst hfirst' =>
      ofRows_of_perm hperm hdistinct hkinds hfirst hfirst',
    fun _ h => ofRows_of_interspersed h⟩

/-- The enumeration and its array can stand in front of the other types.  A range and an array of a type
that is missing can be put in, also under identifiers that are taken. -/
theorem ofRows_in_order_nested :
    let enumerated : List CatalogRow :=
      [⟨⟨"app", "mood", 90002⟩, 'e', none⟩, ⟨⟨"pg_catalog", "int4", 23⟩, 'b', none⟩,
        ⟨⟨"app", "_mood", 90003⟩, 'a', some 90002⟩, ⟨⟨"pg_catalog", "_int4", 1007⟩, 'a', some 23⟩,
        ⟨⟨"app", "matrix", 90001⟩, 'a', some 1007⟩]
    let range : CatalogRow := ⟨⟨"pg_catalog", "int4range", 23⟩, 'r', none⟩
    let dangling : CatalogRow := ⟨⟨"app", "_lost", 70001⟩, 'a', some 70000⟩
    let widened := nestedRows.take 1 ++ range :: dangling :: nestedRows.drop 1
    nestedRows.Perm enumerated ∧ (nestedRows.map CatalogRow.oid).Nodup ∧
      (∀ row ∈ nestedRows, row.kind ∈ kinds) ∧ ElementsFirst nestedRows ∧ ElementsFirst enumerated ∧
      (∃ m, ofRows nestedRows = .ok m ∧ ofRows enumerated = .ok m) ∧
      Interspersed (Idle nestedRows) nestedRows widened ∧ ofRows widened = ofRows nestedRows := by
  intro enumerated range dangling widened
  have hperm : nestedRows.Perm enumerated := by decide
  have hdistinct : (nestedRows.map CatalogRow.oid).Nodup := by decide
  have hkinds : ∀ row ∈ nestedRows, row.kind ∈ kinds := by decide
  have hfirst : ElementsFirst nestedRows := by decide
  have hfirst' : ElementsFirst enumerated := by decide
  have hrange : Idle nestedRows range := .inl (by decide)
  have hdangling : Idle nestedRows dangling := .inr (by decide)
  have hwidened : Interspersed (Idle nestedRows) nestedRows widened :=
    .keep (.put hrange (.put hdangling (.keep (.keep (.keep (.keep .nil))))))
  obtain ⟨hordered, hput⟩ := ofRows_in_order nestedRows
  exact ⟨hperm, hdistinct, hkinds, hfirst, hfirst',
    hordered enumerated hperm hdistinct hkinds hfirst hfirst', hwidened, hput widened hwidened⟩

end TypeMap
end SqlSession
