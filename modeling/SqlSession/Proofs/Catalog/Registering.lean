import SqlSession.Proofs.Catalog.Loading

/-!
# The types that a catalog has

A row of a catalog describes a base type, or an array of a type that a row before it describes
(`TypeMap.Describes`).  If no two rows have the same identifier, then the types of the catalog are
exactly those that its rows describe, each under its own identifier (`TypeMap.find?_ofRows`).  So it can
be told from the rows alone which types there are, and how each of them is made of others
(`TypeMap.ofRows_registers`).
-/

namespace SqlSession

open Effect

def CatalogRow.oid (row : CatalogRow) : Oid := row.identity.oid

/-- The type, its element, the element of that one, and so on. -/
def TypeDescriptor.levels : TypeDescriptor → List TypeDescriptor
  | base identity => [base identity]
  | array identity element => array identity element :: element.levels

namespace TypeMap

/-- The row at a position is of a base type or of a pseudo-type, or of an array whose element is in such
a row before it. -/
inductive Resolvable (rows : List CatalogRow) : Nat → Prop
  | base {i : Nat} {row : CatalogRow} (row_eq : rows[i]? = some row)
      (kind : row.kind = 'b' ∨ row.kind = 'p') : Resolvable rows i
  | array {i j : Nat} {row before : CatalogRow} (row_eq : rows[i]? = some row) (kind : row.kind = 'a')
      (earlier : j < i) (before_eq : rows[j]? = some before) (element : row.element = some before.oid)
      (resolvable : Resolvable rows j) : Resolvable rows i

/-- The type that the row at a position describes. -/
inductive Describes (rows : List CatalogRow) : Nat → TypeDescriptor → Prop
  | base {i : Nat} {row : CatalogRow} (row_eq : rows[i]? = some row)
      (kind : row.kind = 'b' ∨ row.kind = 'p') : Describes rows i (.base row.identity)
  | array {i j : Nat} {row : CatalogRow} {t : TypeDescriptor} (row_eq : rows[i]? = some row)
      (kind : row.kind = 'a') (earlier : j < i) (element : row.element = some t.oid)
      (describes : Describes rows j t) : Describes rows i (.array row.identity t)

variable {rows more : List CatalogRow} {row : CatalogRow} {i : Nat} {t : TypeDescriptor} {m : TypeMap}
  {oid : Oid} {err : Error}

/-! ## What rows describe -/

theorem Describes.identity_eq (h : Describes rows i t) :
    ∃ row, rows[i]? = some row ∧ t.identity = row.identity := by
  cases h with
  | base row_eq kind => exact ⟨_, row_eq, rfl⟩
  | array row_eq kind earlier element describes => exact ⟨_, row_eq, rfl⟩

theorem Describes.oid_eq (h : Describes rows i t) (hrow : rows[i]? = some row) : t.oid = row.oid := by
  obtain ⟨own, hown, hidentity⟩ := h.identity_eq
  cases hown.symm.trans hrow
  exact congrArg TypeIdentity.oid hidentity

theorem resolvable_iff : Resolvable rows i ↔ ∃ t, Describes rows i t := by
  constructor
  · intro h
    induction h with
    | base row_eq kind => exact ⟨_, .base row_eq kind⟩
    | array row_eq kind earlier before_eq element resolvable ih =>
      obtain ⟨t, ht⟩ := ih
      exact ⟨_, .array row_eq kind earlier (ht.oid_eq before_eq ▸ element) ht⟩
  · rintro ⟨t, h⟩
    induction h with
    | base row_eq kind => exact .base row_eq kind
    | array row_eq kind earlier element describes ih =>
      obtain ⟨before, before_eq, -⟩ := describes.identity_eq
      exact .array row_eq kind earlier before_eq (describes.oid_eq before_eq ▸ element) ih

theorem Describes.append (h : Describes rows i t) : Describes (rows ++ more) i t := by
  have hstays : ∀ {i : Nat} {row : CatalogRow}, rows[i]? = some row → (rows ++ more)[i]? = some row :=
    fun hrow => (List.getElem?_append_left (List.getElem?_eq_some_iff.mp hrow).1).trans hrow
  induction h with
  | base row_eq kind => exact .base (hstays row_eq) kind
  | array row_eq kind earlier element describes ih =>
    exact .array (hstays row_eq) kind earlier element ih

/-- Rows that come later do not change what a row describes. -/
theorem describes_of_append (h : Describes (rows ++ more) i t) (hi : i < rows.length) :
    Describes rows i t := by
  induction h with
  | base row_eq kind =>
    rw [List.getElem?_append_left hi] at row_eq
    exact .base row_eq kind
  | array row_eq kind earlier element describes ih =>
    rw [List.getElem?_append_left hi] at row_eq
    exact .array row_eq kind earlier element (ih (by omega))

/-- The elements of a type are described by rows further and further in front, and the last of them is a
base type. -/
theorem Describes.levels (h : Describes rows i t) :
    ∃ positions, (i :: positions).Pairwise (· > ·) ∧
      List.Forall₂ (Describes rows) (i :: positions) t.levels ∧
      ∃ identity, t.levels.getLast? = some (.base identity) := by
  induction h with
  | base row_eq kind =>
    exact ⟨[], List.pairwise_singleton _ _, .cons (.base row_eq kind) .nil, _, rfl⟩
  | @array i j row t row_eq kind earlier element describes ih =>
    obtain ⟨positions, hpairwise, hlevels, identity, hlast⟩ := ih
    refine ⟨j :: positions, ?_, .cons (.array row_eq kind earlier element describes) hlevels, identity, ?_⟩
    · refine List.pairwise_cons.mpr ⟨fun k hk => ?_, hpairwise⟩
      obtain rfl | hk := List.mem_cons.mp hk
      · exact earlier
      · exact Nat.lt_trans ((List.pairwise_cons.mp hpairwise).1 k hk) earlier
    · rw [TypeDescriptor.levels, List.getLast?_cons, hlast]
      rfl

/-! ## What one row adds -/

theorem ofRows_append_singleton (rows : List CatalogRow) (row : CatalogRow) :
    ofRows (rows ++ [row]) = ofRows rows >>= fun m => m.addRow row := by
  unfold ofRows
  rw [List.foldlM_append]
  refine bind_congr fun m => ?_
  rw [List.foldlM_cons]
  cases m.addRow row <;> rfl

/-! ## What all rows add -/

/-- A row adds the type that it describes, if the types so far are those that the rows before it
describe. -/
theorem added?_eq_some_iff
    (h : ∀ oid t, m.find? oid = some t ↔ ∃ i, Describes rows i t ∧ t.oid = oid) :
    m.added? row = some t ↔ Describes (rows ++ [row]) rows.length t := by
  have hlast : (rows ++ [row])[rows.length]? = some row := List.getElem?_concat_length
  unfold added?
  constructor
  · intro hadded
    split at hadded
    · next hkind =>
      cases hadded
      exact .base hlast hkind
    · split at hadded
      · next hkind =>
        obtain ⟨element, hfind, rfl⟩ := Option.map_eq_some_iff.mp hadded
        obtain ⟨oid, helement, hfind⟩ := Option.bind_eq_some_iff.mp hfind
        obtain ⟨j, hdescribes, rfl⟩ := (h oid element).mp hfind
        obtain ⟨before, before_eq, -⟩ := hdescribes.identity_eq
        have hj : j < rows.length := (List.getElem?_eq_some_iff.mp before_eq).1
        exact .array hlast hkind hj helement hdescribes.append
      · cases hadded
  · intro hdescribes
    cases hdescribes with
    | base row_eq kind =>
      cases hlast.symm.trans row_eq
      rw [if_pos kind]
    | @array _ j _ element row_eq kind earlier element_eq describes =>
      cases hlast.symm.trans row_eq
      have hfind : m.find? element.oid = some element :=
        (h _ _).mpr ⟨j, describes_of_append describes earlier, rfl⟩
      rw [if_neg (by rw [kind]; decide), if_pos kind, element_eq, Option.bind_some, hfind]
      rfl

/-- The types of a catalog are those that its rows describe. -/
theorem find?_ofRows (hdistinct : (rows.map CatalogRow.oid).Nodup)
    (hkinds : ∀ row ∈ rows, row.kind ∈ kinds) :
    ∃ m, ofRows rows = .ok m ∧
      ∀ oid t, m.find? oid = some t ↔ ∃ i, Describes rows i t ∧ t.oid = oid := by
  -- The induction takes the last row off, since a row is looked at with the types of all rows before it.
  induction rows using List.reverseRecOn with
  | nil =>
    refine ⟨[], rfl, fun oid t => ⟨nofun, ?_⟩⟩
    rintro ⟨i, hdescribes, -⟩
    obtain ⟨row, row_eq, -⟩ := hdescribes.identity_eq
    cases row_eq
  | append_singleton rows row ih =>
    rw [List.map_append, List.map_singleton, List.nodup_append] at hdistinct
    obtain ⟨hdistinct, -, hnew⟩ := hdistinct
    obtain ⟨m, hm, hfind⟩ := ih hdistinct fun row hrow => hkinds row (List.mem_append_left _ hrow)
    have hkind : row.kind ∈ kinds := hkinds row (List.mem_append_right _ List.mem_cons_self)
    have hadded : ∀ t, m.added? row = some t ↔ Describes (rows ++ [row]) rows.length t :=
      fun t => added?_eq_some_iff hfind
    have hold : ∀ {i t}, Describes rows i t → t.oid ≠ row.oid := by
      intro i t hdescribes
      obtain ⟨before, before_eq, -⟩ := hdescribes.identity_eq
      rw [hdescribes.oid_eq before_eq]
      exact hnew _ (List.mem_map_of_mem (List.mem_of_getElem? before_eq)) _ List.mem_cons_self
    have hsplit : ∀ oid t, (∃ i, Describes (rows ++ [row]) i t ∧ t.oid = oid) ↔
        m.find? oid = some t ∨ m.added? row = some t ∧ t.oid = oid := by
      intro oid t
      rw [hfind, hadded]
      constructor
      · rintro ⟨i, hdescribes, hoid⟩
        obtain ⟨own, own_eq, -⟩ := hdescribes.identity_eq
        have hi : i < rows.length + 1 := by
          simpa using (List.getElem?_eq_some_iff.mp own_eq).1
        obtain hi | rfl := Nat.lt_succ_iff_lt_or_eq.mp hi
        · exact .inl ⟨i, describes_of_append hdescribes hi, hoid⟩
        · exact .inr ⟨hdescribes, hoid⟩
      · rintro (⟨i, hdescribes, hoid⟩ | ⟨hdescribes, hoid⟩)
        · exact ⟨i, hdescribes.append, hoid⟩
        · exact ⟨_, hdescribes, hoid⟩
    rw [ofRows_append_singleton, hm]
    refine ⟨_, (addRow_eq m row).trans (if_pos hkind), fun oid t => ?_⟩
    rw [hsplit]
    cases hnone : m.added? row with
    | none => simp
    | some own =>
      have hown : own.oid = row.oid := ((hadded own).mp hnone).oid_eq List.getElem?_concat_length
      by_cases hoid : oid = own.oid
      · subst hoid
        -- No row before has this identifier, so that nothing is replaced.
        have hfree : ∀ t, m.find? own.oid ≠ some t := by
          intro t ht
          obtain ⟨i, hdescribes, hsame⟩ := (hfind _ _).mp ht
          exact hold hdescribes (hsame.trans hown)
        rw [find?_add_self, Option.some_inj, or_iff_right (hfree t)]
        exact ⟨fun h => ⟨h, h ▸ rfl⟩, And.left⟩
      · rw [find?_add_of_ne hoid, or_iff_left]
        rintro ⟨hsame, rfl⟩
        cases hsame
        exact hoid rfl

/-- What the types of a catalog have under an identifier. -/
structure Registered (rows : List CatalogRow) (m : TypeMap) (oid : Oid) (t : TypeDescriptor) : Prop where
  oid_eq : t.oid = oid
  /-- The names are those of a row, and so is the element, which is what the types have for it. -/
  row : ∃ row ∈ rows, row.oid = oid ∧ t.identity = row.identity ∧
    ((row.kind = 'b' ∨ row.kind = 'p') ∧ t = .base row.identity ∨
      row.kind = 'a' ∧ ∃ elementOid element, row.element = some elementOid ∧
        m.find? elementOid = some element ∧ t = .array row.identity element)
  levels : ∃ positions : List Nat, positions.Pairwise (· > ·) ∧
    List.Forall₂ (fun i level => ∃ row, rows[i]? = some row ∧ level.identity = row.identity)
      positions t.levels ∧
    ∃ identity, t.levels.getLast? = some (.base identity)

theorem registered_of_describes
    (hfind : ∀ oid t, m.find? oid = some t ↔ ∃ i, Describes rows i t ∧ t.oid = oid)
    (h : Describes rows i t) : Registered rows m t.oid t where
  oid_eq := rfl
  row := by
    cases h with
    | base row_eq kind => exact ⟨_, List.mem_of_getElem? row_eq, rfl, rfl, .inl ⟨kind, rfl⟩⟩
    | @array _ j row element row_eq kind earlier element_eq describes =>
      exact ⟨row, List.mem_of_getElem? row_eq, rfl, rfl, .inr ⟨kind, _, element, element_eq,
        (hfind _ _).mpr ⟨j, describes, rfl⟩, rfl⟩⟩
  levels := by
    obtain ⟨positions, hpairwise, hlevels, hlast⟩ := h.levels
    exact ⟨_, hpairwise, hlevels.imp fun _ _ h => h.identity_eq, hlast⟩

/-- The types of a catalog fail exactly for the first row of a kind that does not exist.  Otherwise, if no
two rows have the same identifier, the types are those in rows that are resolvable.  Each stands under the
identifier of its row and has the names of the row, an array has as its element what stands under the
identifier of the element, and the elements come from rows further and further in front until there is a
base type. -/
theorem ofRows_registers (rows : List CatalogRow) :
    ((∃ err, ofRows rows = .error err) ↔ ∃ row ∈ rows, row.kind ∉ kinds) ∧
    (∀ err, ofRows rows = .error err ↔ ∃ row, rows.find? (fun row => row.kind ∉ kinds) = some row ∧
      err = .unsupported (.typeKind row.kind row.identity.name)) ∧
    ((rows.map CatalogRow.oid).Nodup → (∀ row ∈ rows, row.kind ∈ kinds) →
      ∃ m, ofRows rows = .ok m ∧
        (∀ oid, (∃ t, m.find? oid = some t) ↔
          ∃ i row, rows[i]? = some row ∧ row.oid = oid ∧ Resolvable rows i) ∧
        ∀ oid t, m.find? oid = some t → Registered rows m oid t) := by
  refine ⟨?_, fun err => ofRows_eq_error_iff, fun hdistinct hkinds => ?_⟩
  · constructor
    · rintro ⟨err, herr⟩
      obtain ⟨row, hfirst, -⟩ := ofRows_eq_error_iff.mp herr
      exact ⟨row, List.mem_of_find?_eq_some hfirst, by simpa using List.find?_some hfirst⟩
    · rintro ⟨row, hrow, hkind⟩
      have hsome : (rows.find? fun row => row.kind ∉ kinds).isSome := by
        rw [List.find?_isSome]
        exact ⟨row, hrow, by simpa using hkind⟩
      obtain ⟨first, hfirst⟩ := Option.isSome_iff_exists.mp hsome
      exact ⟨_, ofRows_eq_error_iff.mpr ⟨first, hfirst, rfl⟩⟩
  · obtain ⟨m, hm, hfind⟩ := find?_ofRows hdistinct hkinds
    refine ⟨m, hm, fun oid => ?_, fun oid t ht => ?_⟩
    · constructor
      · rintro ⟨t, ht⟩
        obtain ⟨i, hdescribes, rfl⟩ := (hfind oid t).mp ht
        obtain ⟨row, row_eq, -⟩ := hdescribes.identity_eq
        exact ⟨i, row, row_eq, (hdescribes.oid_eq row_eq).symm, resolvable_iff.mpr ⟨t, hdescribes⟩⟩
      · rintro ⟨i, row, row_eq, rfl, hresolvable⟩
        obtain ⟨t, hdescribes⟩ := resolvable_iff.mp hresolvable
        exact ⟨t, (hfind _ t).mpr ⟨i, hdescribes, hdescribes.oid_eq row_eq⟩⟩
    · obtain ⟨i, hdescribes, rfl⟩ := (hfind oid t).mp ht
      exact registered_of_describes hfind hdescribes

/-- A base type, an array of it, an array of that array, and an enumeration with its array. -/
def nestedRows : List CatalogRow :=
  [⟨⟨"pg_catalog", "int4", 23⟩, 'b', none⟩, ⟨⟨"pg_catalog", "_int4", 1007⟩, 'a', some 23⟩,
    ⟨⟨"app", "matrix", 90001⟩, 'a', some 1007⟩, ⟨⟨"app", "mood", 90002⟩, 'e', none⟩,
    ⟨⟨"app", "_mood", 90003⟩, 'a', some 90002⟩]

/-- The array of arrays is resolvable, and the array of the enumeration is not. -/
theorem ofRows_registers_nested :
    (nestedRows.map CatalogRow.oid).Nodup ∧ (∀ row ∈ nestedRows, row.kind ∈ kinds) ∧
      ∃ m, ofRows nestedRows = .ok m ∧ (∃ t, m.find? 90001 = some t ∧ Registered nestedRows m 90001 t) ∧
        ¬ ∃ t, m.find? 90003 = some t := by
  have hdistinct : (nestedRows.map CatalogRow.oid).Nodup := by decide
  have hkinds : ∀ row ∈ nestedRows, row.kind ∈ kinds := by decide
  obtain ⟨m, hm, hfound, hregistered⟩ := (ofRows_registers nestedRows).2.2 hdistinct hkinds
  have hmatrix : Resolvable nestedRows 2 :=
    .array (j := 1) rfl rfl (by decide) rfl rfl
      (.array (j := 0) rfl rfl (by decide) rfl rfl (.base rfl (.inl rfl)))
  obtain ⟨t, ht⟩ := (hfound 90001).mpr ⟨2, _, rfl, rfl, hmatrix⟩
  refine ⟨hdistinct, hkinds, m, hm, ⟨t, ht, hregistered _ t ht⟩, fun hmood => ?_⟩
  obtain ⟨t, ht⟩ := hmood
  have hnone : (match ofRows nestedRows with
      | .ok m => m.find? 90003
      | .error _ => none) = none := by decide +kernel
  rw [hm] at hnone
  cases hnone.symm.trans ht

end TypeMap
end SqlSession
