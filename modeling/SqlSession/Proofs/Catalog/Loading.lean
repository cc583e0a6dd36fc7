import SqlSession.Proofs.Transaction.Calls

/-!
# Types are loaded once

A registry sends the catalog query when a type is asked for and none has been loaded.  If the load
fails at any point, the registry is as empty as before and the next use tries again.  Once it has
succeeded, the registry makes no call and changes no more (`Registry.loaded_once`).
-/

namespace SqlSession

open Effect Engine

/-! ## The types of a catalog -/

namespace TypeMap

/-- Every type stands under its own identifier. -/
def Indexed (m : TypeMap) : Prop := ∀ oid t, m.find? oid = some t → t.oid = oid

/-- The kinds of types that a catalog can have. -/
def kinds : List Char := ['b', 'p', 'a', 'r', 'm', 'e', 'c', 'd']

variable {m m' : TypeMap} {row : CatalogRow} {rows : List CatalogRow} {err : Error}

/-- The type under an identifier, if it has to be there. -/
def entry (m : TypeMap) (oid : Oid) : Except Error TypeDescriptor :=
  match m.find? oid with
  | some t => .ok t
  | none => .error (.unknownType oid)

theorem indexed_nil : Indexed [] := by
  intro oid t h
  cases h

theorem Indexed.add (h : m.Indexed) (t : TypeDescriptor) : (m.add t).Indexed := by
  intro oid u hu
  by_cases hoid : oid = t.oid
  · subst hoid
    rw [find?_add_self] at hu
    cases hu
    rfl
  · rw [find?_add_of_ne hoid] at hu
    exact h oid u hu

/-- The type that a row adds to the types of the rows before it. -/
def added? (m : TypeMap) (row : CatalogRow) : Option TypeDescriptor :=
  if row.kind = 'b' ∨ row.kind = 'p' then some (.base row.identity)
  else if row.kind = 'a' then (row.element.bind m.find?).map (.array row.identity)
  else none

/-- A row of a kind that exists adds at most one type, and any other row is an error. -/
theorem addRow_eq (m : TypeMap) (row : CatalogRow) :
    m.addRow row =
      if row.kind ∈ kinds then
        .ok (match m.added? row with
          | some t => m.add t
          | none => m)
      else .error (.unsupported (.typeKind row.kind row.identity.name)) := by
  obtain ⟨identity, kind, element⟩ := row
  by_cases hkind : kind ∈ kinds
  · rw [if_pos hkind]
    simp only [kinds, List.mem_cons, List.not_mem_nil, or_false] at hkind
    obtain rfl | rfl | rfl | rfl | rfl | rfl | rfl | rfl := hkind
    case inr.inr.inl =>
      unfold addRow added?
      cases element.bind m.find? <;> rfl
    all_goals rfl
  · rw [if_neg hkind]
    unfold addRow
    split
    case h_9 => rfl
    all_goals simp_all [kinds]

theorem Indexed.addRow (h : m.Indexed) (hrow : m.addRow row = .ok m') : m'.Indexed := by
  rw [addRow_eq] at hrow
  split at hrow
  · cases hrow
    cases m.added? row with
    | none => exact h
    | some t => exact h.add t
  · cases hrow

theorem indexed_of_ofRows (h : ofRows rows = .ok m) : m.Indexed :=
  check_foldlM_keeps Indexed.addRow indexed_nil h

theorem foldlM_addRow_eq_error_iff :
    rows.foldlM addRow m = .error err ↔
      ∃ row, rows.find? (fun row => row.kind ∉ kinds) = some row ∧
        err = .unsupported (.typeKind row.kind row.identity.name) := by
  induction rows generalizing m with
  | nil => exact ⟨nofun, fun ⟨_, hfirst, _⟩ => nomatch hfirst⟩
  | cons row rows ih =>
    rw [List.foldlM_cons, addRow_eq]
    by_cases hkind : row.kind ∈ kinds
    · rw [if_pos hkind, List.find?_cons_of_neg (by simpa using hkind)]
      exact ih
    · rw [if_neg hkind, List.find?_cons_of_pos (by simpa using hkind)]
      constructor
      · intro herr
        cases herr
        exact ⟨row, rfl, rfl⟩
      · rintro ⟨_, hfirst, rfl⟩
        cases hfirst
        rfl

/-- The first row of a kind that does not exist is what the types of a catalog fail for. -/
theorem ofRows_eq_error_iff :
    ofRows rows = .error err ↔
      ∃ row, rows.find? (fun row => row.kind ∉ kinds) = some row ∧
        err = .unsupported (.typeKind row.kind row.identity.name) :=
  foldlM_addRow_eq_error_iff

end TypeMap

/-! ## One load -/

namespace Catalog

/-- The type that a fetched row describes.  All six columns are decoded, the flag in the fifth one only
to see whether it can be. -/
def readRow (e : Engine) (t : TableHandle) (b : RowBuffer) : Except Error CatalogRow := do
  let column := cell e (e.describedColumns t) b
  let schema ← column 0
  let oid ← column 1
  let name ← column 2
  let kind ← column 3
  let _ ← column 4
  let element ← column 5
  rowOfCells schema oid name kind element

theorem readRows_succ (e : Engine) (t : TableHandle) (count index : Nat) (b : RowBuffer) :
    readRows e t (count + 1) index b = do
      let b ← e.fetchRow index t b
      let row ← readRow e t b
      let rest ← readRows e t count (index + 1) b
      return row :: rest := by
  simp only [readRows, readRow, bind_assoc]

/-- The values in the six columns of a fetched row, which are decoded from left to right. -/
def decoded (e : Engine) (t : TableHandle) (b : RowBuffer) : Except Error (List Value) :=
  (List.range CatalogFault.expectedColumns).mapM (cell e (e.describedColumns t) b)

/-- The type that these values describe.  The fifth one is not looked at. -/
def describe (vs : List Value) : Except Error CatalogRow :=
  rowOfCells (vs.getD 0 .null) (vs.getD 1 .null) (vs.getD 2 .null) (vs.getD 3 .null)
    (vs.getD 5 .null)

theorem readRow_eq (e : Engine) (t : TableHandle) (b : RowBuffer) :
    readRow e t b = decoded e t b >>= describe := by
  have hcolumns : List.range CatalogFault.expectedColumns = [0, 1, 2, 3, 4, 5] := rfl
  unfold readRow decoded
  rw [hcolumns]
  simp only [List.mapM_cons, List.mapM_nil, bind_assoc, pure_bind]
  rfl

/-- A row is not fetched, or one of its columns is not decoded, or its values do not describe a type.
The buffers are those that the rows before it have left. -/
inductive RowFails (e : Engine) (t : TableHandle) (index : Nat) (b : RowBuffer) (err : Error) : Prop
  | unfetched (fetch : e.fetchRow index t b = .error err)
  | undecoded {b' : RowBuffer} (fetch : e.fetchRow index t b = .ok b')
      (decode : decoded e t b' = .error err)
  | malformed {b' : RowBuffer} {vs : List Value} (fetch : e.fetchRow index t b = .ok b')
      (decode : decoded e t b' = .ok vs) (row : describe vs = .error err)

/-- These rows of a table are read one after the other from a position on, each into the buffers that the
one before it has left. -/
inductive RowsRead (e : Engine) (t : TableHandle) :
    Nat → RowBuffer → List CatalogRow → RowBuffer → Prop
  | nil {index : Nat} {b : RowBuffer} : RowsRead e t index b [] b
  | cons {index : Nat} {b b₁ b' : RowBuffer} {row : CatalogRow} {rows : List CatalogRow}
      (fetch : e.fetchRow index t b = .ok b₁) (read : readRow e t b₁ = .ok row)
      (rest : RowsRead e t (index + 1) b₁ rows b') : RowsRead e t index b (row :: rows) b'

section Rows

variable {e : Engine} {t : TableHandle} {count index : Nat} {b : RowBuffer} {rows : List CatalogRow}
  {err : Error}

theorem rowFails_iff :
    RowFails e t index b err ↔
      e.fetchRow index t b = .error err ∨
        ∃ b', e.fetchRow index t b = .ok b' ∧ readRow e t b' = .error err := by
  simp only [readRow_eq, check_bind_eq_error]
  constructor
  · intro hfails
    cases hfails with
    | unfetched fetch => exact .inl fetch
    | undecoded fetch decode => exact .inr ⟨_, fetch, .inl decode⟩
    | malformed fetch decode row => exact .inr ⟨_, fetch, .inr ⟨_, decode, row⟩⟩
  · rintro (fetch | ⟨b', fetch, decode | ⟨vs, decode, row⟩⟩)
    · exact .unfetched fetch
    · exact .undecoded fetch decode
    · exact .malformed fetch decode row

/-- So many rows are read if each of them is. -/
theorem readRows_eq_ok_iff :
    readRows e t count index b = .ok rows ↔
      rows.length = count ∧ ∃ b', RowsRead e t index b rows b' := by
  induction count generalizing index b rows with
  | zero =>
    constructor
    · intro h
      cases h
      exact ⟨rfl, b, .nil⟩
    · rintro ⟨hlength, -⟩
      rw [List.eq_nil_of_length_eq_zero hlength]
      rfl
  | succ count ih =>
    rw [readRows_succ]
    constructor
    · intro h
      obtain ⟨b₁, fetch, h⟩ := check_bind_eq_ok.mp h
      obtain ⟨row, read, h⟩ := check_bind_eq_ok.mp h
      obtain ⟨rest, hrest, h⟩ := check_bind_eq_ok.mp h
      cases h
      obtain ⟨hlength, b', hread⟩ := ih.mp hrest
      exact ⟨congrArg (· + 1) hlength, b', .cons fetch read hread⟩
    · rintro ⟨hlength, b', hread⟩
      cases hread with
      | nil => cases hlength
      | cons fetch read rest =>
        have hrest := ih.mpr ⟨Nat.succ.inj hlength, b', rest⟩
        exact check_bind_eq_ok.mpr ⟨_, fetch, check_bind_eq_ok.mpr ⟨_, read,
          check_bind_eq_ok.mpr ⟨_, hrest, rfl⟩⟩⟩

/-- Rows are read up to the first one that fails, and its error is the result. -/
theorem readRows_eq_error_iff :
    readRows e t count index b = .error err ↔
      ∃ rows b', RowsRead e t index b rows b' ∧ rows.length < count ∧
        RowFails e t (index + rows.length) b' err := by
  induction count generalizing index b with
  | zero =>
    constructor
    · intro h
      cases h
    · rintro ⟨rows, b', -, hlength, -⟩
      exact absurd hlength (Nat.not_lt_zero _)
  | succ count ih =>
    rw [readRows_succ]
    constructor
    · intro h
      obtain fetch | ⟨b₁, fetch, h⟩ := check_bind_eq_error.mp h
      · exact ⟨[], b, .nil, Nat.succ_pos count, .unfetched fetch⟩
      obtain read | ⟨row, read, h⟩ := check_bind_eq_error.mp h
      · exact ⟨[], b, .nil, Nat.succ_pos count, rowFails_iff.mpr (.inr ⟨b₁, fetch, read⟩)⟩
      obtain hrest | ⟨rest, -, h⟩ := check_bind_eq_error.mp h
      · obtain ⟨rows, b', hread, hlength, hfails⟩ := ih.mp hrest
        refine ⟨row :: rows, b', .cons fetch read hread, Nat.succ_lt_succ hlength, ?_⟩
        rw [List.length_cons, Nat.add_comm rows.length, ← Nat.add_assoc]
        exact hfails
      · cases h
    · rintro ⟨rows, b', hread, hlength, hfails⟩
      cases hread with
      | nil =>
        obtain fetch | ⟨b₁, fetch, read⟩ := rowFails_iff.mp hfails
        · exact check_bind_eq_error.mpr (.inl fetch)
        · exact check_bind_eq_error.mpr (.inr ⟨b₁, fetch, check_bind_eq_error.mpr (.inl read)⟩)
      | @cons _ _ b₁ _ row rows fetch read rest =>
        rw [List.length_cons, Nat.add_comm rows.length, ← Nat.add_assoc] at hfails
        have hrest := ih.mpr ⟨rows, b', rest, Nat.lt_of_succ_lt_succ hlength, hfails⟩
        exact check_bind_eq_error.mpr (.inr ⟨b₁, fetch, check_bind_eq_error.mpr (.inr ⟨row, read,
          check_bind_eq_error.mpr (.inl hrest)⟩)⟩)

end Rows

/-- What the answer to the catalog query comes to: it is not a table of types, or there is a first row that
fails, or a first row of a kind that does not exist, or all rows together are the types.  Rows are read
from the first one on, and blank buffers are what the first one finds. -/
inductive ComesTo (e : Engine) (outcome : Outcome) : Except Error TypeMap → Prop
  | noTable (table : outcome.table = none) : ComesTo e outcome (.error (.state (.catalog .noTable)))
  | tooFew {t : TableHandle} (table : outcome.table = some t)
      (few : e.columnCount t < CatalogFault.expectedColumns) :
      ComesTo e outcome (.error (.state (.catalog (.columns (e.columnCount t)))))
  | unreadable {t : TableHandle} {rows : List CatalogRow} {b : RowBuffer} {err : Error}
      (table : outcome.table = some t) (enough : CatalogFault.expectedColumns ≤ e.columnCount t)
      (before : RowsRead e t 0 (.blank (e.columnCount t)) rows b)
      (more : rows.length < outcome.processed) (fails : RowFails e t rows.length b err) :
      ComesTo e outcome (.error err)
  | unknownKind {t : TableHandle} {rows : List CatalogRow} {b : RowBuffer} {row : CatalogRow}
      (table : outcome.table = some t) (enough : CatalogFault.expectedColumns ≤ e.columnCount t)
      (read : RowsRead e t 0 (.blank (e.columnCount t)) rows b)
      (all : rows.length = outcome.processed)
      (first : rows.find? (fun row => row.kind ∉ TypeMap.kinds) = some row) :
      ComesTo e outcome (.error (.unsupported (.typeKind row.kind row.identity.name)))
  | loaded {t : TableHandle} {rows : List CatalogRow} {b : RowBuffer} {m : TypeMap}
      (table : outcome.table = some t) (enough : CatalogFault.expectedColumns ≤ e.columnCount t)
      (read : RowsRead e t 0 (.blank (e.columnCount t)) rows b)
      (all : rows.length = outcome.processed) (types : TypeMap.ofRows rows = .ok m) :
      ComesTo e outcome (.ok m)

/-- The ways in which the types of an engine are loaded: the query is refused, or its answer comes to
something. -/
inductive Loads (e : Engine) : Except Error TypeMap → Prop
  | refused {r : ErrorRecord} (response : e.response query = .failure r) :
      Loads e (.error (.database (.ofRecord r)))
  | answered {e' : Engine} {outcome : Outcome} {loading : Except Error TypeMap}
      (sent : Request.execute query true e = .ok outcome e') (comes : ComesTo e' outcome loading) :
      Loads e loading

variable {e e' : Engine} {outcome : Outcome} {err : Error} {loading : Except Error TypeMap}

/-- The types in the answer to the catalog query. -/
def types (e : Engine) (outcome : Outcome) : Except Error TypeMap := do
  TypeMap.ofRows (← readTable e outcome)

theorem types_of_noTable (h : outcome.table = none) :
    types e outcome = .error (.state (.catalog .noTable)) := by
  unfold types readTable
  rw [h]
  rfl

theorem types_of_table {t : TableHandle} (h : outcome.table = some t) :
    types e outcome =
      if e.columnCount t < CatalogFault.expectedColumns then
        .error (.state (.catalog (.columns (e.columnCount t))))
      else readRows e t outcome.processed 0 (.blank (e.columnCount t)) >>= TypeMap.ofRows := by
  unfold types readTable
  rw [h]
  dsimp only
  split <;> rfl

/-- There is one thing that an answer comes to. -/
theorem comesTo_iff : ComesTo e outcome loading ↔ types e outcome = loading := by
  constructor
  · intro h
    cases h with
    | noTable table => exact types_of_noTable table
    | tooFew table few => rw [types_of_table table, if_pos few]
    | unreadable table enough before more fails =>
      rw [types_of_table table, if_neg (Nat.not_lt.mpr enough), check_bind_eq_error]
      refine .inl (readRows_eq_error_iff.mpr ⟨_, _, before, more, ?_⟩)
      rw [Nat.zero_add]
      exact fails
    | unknownKind table enough read all first =>
      have hrows := readRows_eq_ok_iff.mpr ⟨all, _, read⟩
      rw [types_of_table table, if_neg (Nat.not_lt.mpr enough), hrows]
      exact TypeMap.ofRows_eq_error_iff.mpr ⟨_, first, rfl⟩
    | loaded table enough read all types =>
      have hrows := readRows_eq_ok_iff.mpr ⟨all, _, read⟩
      rw [types_of_table table, if_neg (Nat.not_lt.mpr enough), hrows]
      exact types
  · rintro rfl
    cases htable : outcome.table with
    | none =>
      rw [types_of_noTable htable]
      exact .noTable htable
    | some t =>
      rw [types_of_table htable]
      split
      · next hfew => exact .tooFew htable hfew
      · next henough =>
        have henough := Nat.not_lt.mp henough
        cases hrows : readRows e t outcome.processed 0 (.blank (e.columnCount t)) with
        | error err =>
          obtain ⟨rows, b, hread, hmore, hfails⟩ := readRows_eq_error_iff.mp hrows
          rw [Nat.zero_add] at hfails
          exact .unreadable htable henough hread hmore hfails
        | ok rows =>
          obtain ⟨hall, b, hread⟩ := readRows_eq_ok_iff.mp hrows
          show ComesTo e outcome (TypeMap.ofRows rows)
          cases htypes : TypeMap.ofRows rows with
          | ok m => exact .loaded htable henough hread hall htypes
          | error err =>
            obtain ⟨row, hfirst, rfl⟩ := TypeMap.ofRows_eq_error_iff.mp htypes
            exact .unknownKind htable henough hread hall hfirst

theorem Loads.indexed {m : TypeMap} (h : Loads e (.ok m)) : m.Indexed := by
  cases h with
  | answered _ comes =>
    cases comes with
    | loaded _ _ _ _ types => exact TypeMap.indexed_of_ofRows types

/-- Once the query has been answered nothing more is asked of the engine. -/
theorem load_of_sent (hsent : Request.execute query true e = .ok outcome e') :
    load e = (ofExcept (types e' outcome) : EngineM TypeMap) e' := by
  unfold load types
  rw [bind_apply, hsent]
  dsimp only
  rw [bind_apply, get_apply]
  dsimp only
  cases readTable e' outcome <;> rfl

theorem load_of_refused (hrefused : Request.execute query true e = .error err e') :
    load e = .error err e' := by
  unfold load
  rw [bind_apply, hrefused]

/-- There is one way in which the types of an engine are loaded. -/
theorem loads_iff : Loads e loading ↔ verdict (load e) = loading := by
  cases hsent : Request.execute query true e with
  | error err e' =>
    obtain ⟨r, hresponse, rfl⟩ := Request.execute_eq_error hsent
    rw [load_of_refused hsent]
    constructor
    · intro h
      cases h with
      | refused response =>
        cases hresponse.symm.trans response
        rfl
      | answered sent _ => cases hsent.symm.trans sent
    · rintro rfl
      exact .refused hresponse
  | ok outcome e' =>
    rw [load_of_sent hsent, verdict_ofExcept]
    constructor
    · intro h
      cases h with
      | refused response => exact absurd response (Request.execute_eq_ok hsent _)
      | answered sent comes =>
        cases hsent.symm.trans sent
        exact comesTo_iff.mp comes
    · intro h
      exact .answered hsent (comesTo_iff.mpr h)

/-- To load the types takes one call, however it goes. -/
theorem load_logs (e : Engine) : Logs e (final (load e)) [.execute query true] := by
  have hlogs := Request.execute_logs query true e
  cases hsent : Request.execute query true e with
  | error err e' =>
    rw [hsent] at hlogs
    rw [load_of_refused hsent]
    exact hlogs
  | ok outcome e' =>
    rw [hsent] at hlogs
    rw [load_of_sent hsent, final_ofExcept]
    exact hlogs

end Catalog

/-! ## The uses of a registry -/

namespace Registry

variable {α : Type}

/-- A question about the types, which are loaded before if they are not there.  If that fails nothing is
asked. -/
def withTypes (question : TypeMap → Except Error α) : EStateM Error (Registry × Engine) α := fun s =>
  match s.1.types with
  | some m => (ofExcept (question m) : EStateM Error (Registry × Engine) α) s
  | none =>
    match Catalog.load s.2 with
    | .ok m e => (ofExcept (question m) : EStateM Error (Registry × Engine) α) (⟨some m⟩, e)
    | .error err e => .error err (s.1, e)

section

variable {question : TypeMap → Except Error α} {e e' : Engine} {m : TypeMap} {err : Error}

theorem withTypes_of_loaded :
    withTypes question (⟨some m⟩, e) =
      (ofExcept (question m) : EStateM Error (Registry × Engine) α) (⟨some m⟩, e) := rfl

theorem withTypes_of_ok (h : Catalog.load e = .ok m e') :
    withTypes question (⟨none⟩, e) =
      (ofExcept (question m) : EStateM Error (Registry × Engine) α) (⟨some m⟩, e') := by
  unfold withTypes
  simp only [h]

theorem withTypes_of_error (h : Catalog.load e = .error err e') :
    withTypes question (⟨none⟩, e) = .error err (⟨none⟩, e') := by
  unfold withTypes
  simp only [h]

theorem ensureLoaded_of_loaded : ensureLoaded (⟨some m⟩, e) = .ok () (⟨some m⟩, e) := rfl

theorem ensureLoaded_of_error (h : Catalog.load e = .error err e') :
    ensureLoaded (⟨none⟩, e) = .error err (⟨none⟩, e') := by
  have hloaded : loaded ⟨none⟩ e = .error err e' := bind_eq_error.mpr (.inl h)
  unfold ensureLoaded
  simp only [hloaded]

theorem ensureLoaded_of_ok (h : Catalog.load e = .ok m e') :
    ensureLoaded (⟨none⟩, e) = .ok () (⟨some m⟩, e') := by
  have hloaded : loaded ⟨none⟩ e = .ok ⟨some m⟩ e' := bind_eq_ok.mpr ⟨m, e', h, rfl⟩
  unfold ensureLoaded
  simp only [hloaded]

end

theorem ensureLoaded_eq : ensureLoaded = withTypes fun _ => .ok () := by
  funext s
  obtain ⟨⟨types⟩, e⟩ := s
  cases types with
  | some m => rfl
  | none =>
    cases hload : Catalog.load e with
    | ok m e' =>
      rw [ensureLoaded_of_ok hload, withTypes_of_ok hload]
      rfl
    | error err e' => rw [ensureLoaded_of_error hload, withTypes_of_error hload]

/-- To look twice, before the types are loaded and after that, is to look once after that. -/
theorem resolve_eq (oid : Oid) : resolve oid = withTypes fun m => m.entry oid := by
  have hlookup : ∀ m, lookup? ⟨some m⟩ oid = m.find? oid := fun _ => rfl
  funext s
  obtain ⟨⟨types⟩, e⟩ := s
  unfold resolve TypeMap.entry
  rw [bind_apply, get_apply]
  cases types with
  | some m =>
    rw [withTypes_of_loaded]
    dsimp only
    rw [hlookup]
    cases hfind : m.find? oid with
    | some t => rfl
    | none =>
      dsimp only
      rw [bind_apply, ensureLoaded_of_loaded]
      dsimp only
      rw [bind_apply, get_apply]
      dsimp only
      rw [hlookup, hfind]
      rfl
  | none =>
    dsimp only [lookup?, Option.bind_none]
    rw [bind_apply]
    cases hload : Catalog.load e with
    | error err e' => rw [ensureLoaded_of_error hload, withTypes_of_error hload]
    | ok m e' =>
      rw [ensureLoaded_of_ok hload, withTypes_of_ok hload]
      dsimp only
      rw [bind_apply, get_apply]
      dsimp only [Option.bind_some]
      cases m.find? oid <;> rfl

/-- The types that a registry shows together with an engine: the ones it has, or what a load would
give. -/
def view (r : Registry) (e : Engine) : Except Error TypeMap :=
  match r.types with
  | some m => .ok m
  | none => verdict (Catalog.load e)

section

variable {question : TypeMap → Except Error α} {β : Type}

theorem verdict_withTypes (r : Registry) (e : Engine) :
    verdict (withTypes question (r, e)) = r.view e >>= question := by
  obtain ⟨types⟩ := r
  cases types with
  | some m =>
    rw [withTypes_of_loaded, verdict_ofExcept]
    rfl
  | none =>
    unfold view
    dsimp only
    cases hload : Catalog.load e with
    | ok m e' =>
      rw [withTypes_of_ok hload, verdict_ofExcept]
      rfl
    | error err e' =>
      rw [withTypes_of_error hload]
      rfl

/-- An empty registry has the types after a load that has succeeded, and none after one that has
failed. -/
theorem final_withTypes_of_empty (e : Engine) :
    final (withTypes question (⟨none⟩, e)) =
      (⟨(verdict (Catalog.load e)).toOption⟩, final (Catalog.load e)) := by
  cases hload : Catalog.load e with
  | ok m e' =>
    rw [withTypes_of_ok hload, final_ofExcept]
    rfl
  | error err e' =>
    rw [withTypes_of_error hload]
    rfl

theorem withTypes_map (f : α → β) :
    (withTypes question >>= fun a => pure (f a)) = withTypes fun m => f <$> question m := by
  funext s
  obtain ⟨⟨types⟩, e⟩ := s
  rw [bind_apply]
  cases types with
  | some m =>
    rw [withTypes_of_loaded, withTypes_of_loaded]
    cases question m <;> rfl
  | none =>
    cases hload : Catalog.load e with
    | ok m e' =>
      rw [withTypes_of_ok hload, withTypes_of_ok hload]
      cases question m <;> rfl
    | error err e' => rw [withTypes_of_error hload, withTypes_of_error hload]

end

/-- What a registry is used for. -/
inductive Use
  | ensureLoaded
  | resolve (oid : Oid)
  | lookup (oid : Oid)
  | size
  | isLoaded

inductive Answer
  | done
  | type (t : TypeDescriptor)
  | entry (t : Option TypeDescriptor)
  | count (n : Nat)
  | flag (b : Bool)

namespace Use

def ask : Use → EStateM Error (Registry × Engine) Answer
  | ensureLoaded => do
    Registry.ensureLoaded
    return .done
  | resolve oid => do
    let t ← Registry.resolve oid
    return .type t
  | lookup oid => do
    let s ← get
    return .entry (s.1.lookup? oid)
  | size => do
    let s ← get
    return .count s.1.size
  | isLoaded => do
    let s ← get
    return .flag s.1.isLoaded

/-- The use needs the types. -/
def Needs : Use → Prop
  | ensureLoaded | resolve _ => True
  | lookup _ | size | isLoaded => False

/-- What the use answers once these types have been loaded. -/
def answer : Use → TypeMap → Except Error Answer
  | ensureLoaded, _ => .ok .done
  | resolve oid, m => .type <$> m.entry oid
  | lookup oid, m => .ok (.entry (m.find? oid))
  | size, m => .ok (.count m.length)
  | isLoaded, _ => .ok (.flag true)

variable {use : Use}

theorem ask_of_needs (h : use.Needs) : use.ask = withTypes use.answer := by
  cases use
  case ensureLoaded =>
    dsimp only [ask]
    rw [ensureLoaded_eq]
    exact withTypes_map _
  case resolve oid =>
    dsimp only [ask]
    rw [resolve_eq]
    exact withTypes_map _
  all_goals exact h.elim

theorem final_ask_of_not_needs (h : ¬ use.Needs) (r : Registry) (e : Engine) :
    final (use.ask (r, e)) = (r, e) := by
  cases use
  case ensureLoaded | resolve => exact absurd trivial h
  all_goals rfl

/-- A registry that has the types answers from them and does nothing. -/
theorem ask_of_loaded (use : Use) (m : TypeMap) (e : Engine) :
    verdict (use.ask (⟨some m⟩, e)) = use.answer m ∧ final (use.ask (⟨some m⟩, e)) = (⟨some m⟩, e) := by
  by_cases hneeds : use.Needs
  · rw [ask_of_needs hneeds, withTypes_of_loaded, verdict_ofExcept, final_ofExcept]
    exact ⟨rfl, rfl⟩
  · refine ⟨?_, final_ask_of_not_needs hneeds _ _⟩
    cases use
    case ensureLoaded | resolve => exact absurd trivial hneeds
    all_goals rfl

end Use

/-! ## A whole history -/

/-- The registry after some uses, each with an engine in whatever state. -/
def after (r : Registry) (history : List (Use × Engine)) : Registry :=
  history.foldl (fun r used => (final (used.1.ask (r, used.2))).1) r

theorem after_of_loaded (m : TypeMap) (history : List (Use × Engine)) :
    after ⟨some m⟩ history = ⟨some m⟩ := by
  induction history with
  | nil => rfl
  | cons used history ih =>
    unfold after at ih ⊢
    rw [List.foldl_cons, (used.1.ask_of_loaded m used.2).2]
    exact ih

/-- The types that a registry has stand under their own identifiers. -/
def Indexed (r : Registry) : Prop := ∀ m, r.types = some m → m.Indexed

theorem indexed_empty : Indexed {} := by
  intro m h
  cases h

theorem Indexed.ask {r : Registry} (h : r.Indexed) (use : Use) (e : Engine) :
    (final (use.ask (r, e))).1.Indexed := by
  by_cases hneeds : use.Needs
  · obtain ⟨_ | m⟩ := r
    · rw [Use.ask_of_needs hneeds, final_withTypes_of_empty]
      intro m hm
      cases hload : verdict (Catalog.load e) with
      | error err =>
        rw [hload] at hm
        cases hm
      | ok m' =>
        rw [hload] at hm
        cases hm
        exact (Catalog.loads_iff.mpr hload).indexed
    · rw [(use.ask_of_loaded m e).2]
      exact h
  · rw [Use.final_ask_of_not_needs hneeds]
    exact h

theorem Indexed.after {r : Registry} (h : r.Indexed) (history : List (Use × Engine)) :
    (r.after history).Indexed := by
  induction history generalizing r with
  | nil => exact h
  | cons used history ih => exact ih (h.ask used.1 used.2)

/-- As long as a registry has no types, every use that needs them makes one call, which is the catalog
query.  There is one way in which the load goes.  If it fails then its error is the answer, and there are no
types afterwards either.  Once there are types, no use makes a call, the registry stays as it is, and an
identifier leads to the type that is there under it or to none. -/
theorem loaded_once (history : List (Use × Engine)) (use : Use) (e : Engine) :
    let r := after {} history
    let result := use.ask (r, e)
    (r.types = none →
      r.size = 0 ∧ (∀ oid, r.lookup? oid = none) ∧
        (¬ use.Needs → final result = (r, e)) ∧
        (use.Needs → Logs e (final result).2 [.execute Catalog.query true] ∧
          ∃ loading, (∀ other, Catalog.Loads e other ↔ other = loading) ∧
            verdict result = loading >>= use.answer ∧
            (final result).1.types = loading.toOption)) ∧
      ∀ m, r.types = some m →
        verdict result = use.answer m ∧ final result = (r, e) ∧ (∀ later, after r later = r) ∧
          m.Indexed := by
  intro r result
  have hindexed : r.Indexed := indexed_empty.after history
  clear_value r
  obtain ⟨types⟩ := r
  constructor
  · rintro rfl
    refine ⟨rfl, fun _ => rfl, fun hneeds => Use.final_ask_of_not_needs hneeds _ e, fun hneeds => ?_⟩
    have hask : result = withTypes use.answer (⟨none⟩, e) := congrFun (Use.ask_of_needs hneeds) _
    have hloads : ∀ other, Catalog.Loads e other ↔ other = verdict (Catalog.load e) := by
      intro other
      rw [Catalog.loads_iff, eq_comm]
    rw [hask, final_withTypes_of_empty, verdict_withTypes]
    exact ⟨Catalog.load_logs e, _, hloads, rfl, rfl⟩
  · rintro m rfl
    obtain ⟨hverdict, hfinal⟩ := use.ask_of_loaded m e
    exact ⟨hverdict, hfinal, after_of_loaded m, hindexed m rfl⟩

end Registry
end SqlSession
