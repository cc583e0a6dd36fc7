import SqlSession.Proofs.Catalog.Agreement
import SqlSession.Proofs.Catalog.Registering
import SqlSession.Proofs.Cursor.Reading

/-!
# Rows of a catalog through an engine

An engine that is given the cells of some rows hands the same rows out again.  Each row is read as it was
given whatever the buffers held before (`Catalog.readRow_of_shows`), so a registry that loads them has
the types of these rows, or fails as they do (`Registry.ensureLoaded_withCatalog`).
-/

namespace SqlSession

open Effect Engine

theorem Unsigned.narrow_toNat (n : UInt32) : Unsigned.narrow (Int64.ofNat n.toNat) = .ok n := by
  have hn : n.toNat < UInt32.size := n.toNat_lt_size
  have hwide : n.toNat < 2 ^ 63 := Nat.lt_trans hn (by decide)
  have hint : (Int64.ofNat n.toNat).toInt = n.toNat := Int64.toInt_ofNat_of_lt hwide
  unfold Unsigned.narrow
  rw [hint, if_neg (by omega), if_pos (by omega), Int.toNat_natCast, UInt32.ofNat_toNat]

namespace Catalog

variable {e e' : Engine} {t : TableHandle} {rows : List CatalogRow} {row : CatalogRow} {b : RowBuffer}

/-! ## One row -/

theorem oidIn_oidValue (column : Nat) (oid : Oid) : oidIn column (oidValue oid) = .ok (some oid) := by
  unfold oidIn oidValue
  dsimp only
  rw [Unsigned.narrow_toNat]

theorem oidIn_element (column : Nat) (element : Option Oid) :
    oidIn column ((element.map oidValue).getD .null) = .ok element := by
  cases element with
  | none => rfl
  | some oid => exact oidIn_oidValue column oid

theorem rowOfCells_cells (row : CatalogRow) :
    rowOfCells (.text row.identity.schema) (oidValue row.identity.oid) (.text row.identity.name)
      (.text (String.singleton row.kind)) ((row.element.map oidValue).getD .null) = .ok row := by
  unfold rowOfCells
  simp only [textIn, oidIn_oidValue, oidIn_element, bind, Except.bind, String.toList_singleton]
  rfl

/-- A column of buffers that hold a row is the value in that column. -/
theorem cell_of_holds (h : e.Undisturbed) {values : List Value} (hb : b.Holds e values)
    (described : List Column) {i : Nat} {v : Value} (hv : values[i]? = some v) :
    cell e described b i = .ok v := by
  obtain ⟨-, d, hcell, hvalue⟩ := hb.cell? hv
  unfold cell
  rw [hcell]
  cases hnull : v.isNull with
  | true => rw [Value.isNull_iff.mp hnull]
  | false =>
    unfold decode
    dsimp only
    rw [h.decode, if_neg nofun, hvalue hnull]

theorem readRow_of_holds (h : e.Undisturbed) (hb : b.Holds e (cells row)) :
    readRow e t b = .ok row := by
  have hcell : ∀ {i : Nat} {v : Value}, (cells row)[i]? = some v →
      cell e (e.describedColumns t) b i = .ok v := fun hv => cell_of_holds h hb _ hv
  unfold readRow
  dsimp only
  rw [hcell (i := 0) rfl, hcell (i := 1) rfl, hcell (i := 2) rfl, hcell (i := 3) rfl,
    hcell (i := 4) rfl, hcell (i := 5) rfl]
  exact rowOfCells_cells row

/-- A row is fetched and read as it was given, whatever the buffers hold before. -/
theorem readRow_of_shows (h : e.Undisturbed) (ht : e.Shows t columns (rows.map cells)) {i : Nat}
    (hrow : rows[i]? = some row) (hb : b.Sized columns.length) :
    ∃ b', e.fetchRow i t b = .ok b' ∧ b'.Sized columns.length ∧ readRow e t b' = .ok row := by
  have hvalues : (rows.map cells)[i]? = some (cells row) := by
    rw [List.getElem?_map, hrow, Option.map_some]
  obtain ⟨stored, hstored, hshows⟩ := ht.row hvalues
  have hsized : b.Sized stored.length := by rw [hshows.length_eq]; exact hb
  have hholds : (RowBuffer.ofCells stored).Holds e (cells row) := ⟨stored, hshows, rfl⟩
  refine ⟨.ofCells stored, ?_, hholds.sized, readRow_of_holds h hholds⟩
  unfold fetchRow
  rw [h.fetch, if_neg nofun, hstored]
  dsimp only
  rw [RowBuffer.overwrite_eq_ofCells hsized]

/-! ## All rows -/

theorem readRows_of_shows (h : e.Undisturbed) (ht : e.Shows t columns (rows.map cells))
    {count index : Nat} (hcount : index + count = rows.length) (hb : b.Sized columns.length) :
    readRows e t count index b = .ok (rows.drop index) := by
  induction count generalizing index b with
  | zero => rw [List.drop_eq_nil_of_le (by omega)]; rfl
  | succ count ih =>
    have hindex : index < rows.length := by omega
    obtain ⟨b', hfetch, hsized, hread⟩ :=
      readRow_of_shows h ht (List.getElem?_eq_getElem hindex) hb
    rw [readRows_succ, hfetch]
    show (readRow e t b' >>= fun row => _) = _
    rw [hread]
    show (readRows e t count (index + 1) b' >>= fun rest => _) = _
    rw [ih (by omega) hsized, List.drop_eq_getElem_cons hindex]
    rfl

theorem types_of_shows (h : e.Undisturbed) (ht : e.Shows t columns (rows.map cells)) :
    types e ⟨some t, rows.length⟩ = TypeMap.ofRows rows := by
  have hread : readTable e ⟨some t, rows.length⟩ = .ok rows := by
    unfold readTable columnCount
    dsimp only
    rw [ht.columns_eq, if_neg (by decide)]
    exact readRows_of_shows h ht (Nat.zero_add _) (RowBuffer.sized_blank _)
  unfold types
  rw [hread]
  rfl

/-! ## Loading -/

theorem response_answerWith (e : Engine) (q : String) (r : Response) :
    (e.answerWith q r).response q = r := by
  have hscripted : (e.answerWith q r).scripted? q = some r := by
    unfold scripted? answerWith
    rw [List.lookup_cons, beq_self_eq_true]
  unfold Engine.response
  rw [hscripted]

theorem response_withCatalog (e : Engine) (values : List (List Value)) :
    (e.withCatalog values).response query = .rows columns values :=
  response_answerWith e query _

/-- The catalog query gives a table of the rows. -/
theorem execute_withCatalog (h : e.Undisturbed)
    (hresponse : e.response query = .rows columns (rows.map cells)) :
    ∃ t e', Request.execute query true e = .ok ⟨some t, rows.length⟩ e' ∧ e'.Undisturbed ∧
      e'.Shows t columns (rows.map cells) := by
  cases hsent : Request.execute query true e with
  | error err e' =>
    obtain ⟨r, hr, -⟩ := Request.execute_eq_error hsent
    rw [hresponse] at hr
    cases hr
  | ok outcome e' =>
    obtain ⟨hcontinues, hanswered⟩ := answered_of_sent h.rowCount hsent
    rw [hresponse] at hanswered
    cases hanswered with
    | @table t _ _ hshows =>
      rw [List.length_map]
      exact ⟨t, e', rfl, h.of_alike hcontinues.alike, hshows⟩

theorem verdict_load_of_response (h : e.Undisturbed)
    (hresponse : e.response query = .rows columns (rows.map cells)) :
    verdict (load e) = TypeMap.ofRows rows := by
  obtain ⟨t, e', hsent, hundisturbed, hshows⟩ := execute_withCatalog h hresponse
  rw [load_of_sent hsent, verdict_ofExcept]
  exact types_of_shows hundisturbed hshows

end Catalog

/-- An empty registry that loads the types of an engine that has been given some rows for its catalog has
the same types as the rows, or fails with the same error, whatever the engine has done before or since.
Each row is fetched and read as it was given from buffers that hold anything. -/
theorem Registry.ensureLoaded_withCatalog (rows : List CatalogRow) {e e' : Engine} (h : e.Undisturbed)
    (hgiven : Alike (e.withCatalog (rows.map Catalog.cells)) e') :
    let result := ensureLoaded ({}, e')
    (∀ err, TypeMap.ofRows rows = .error err →
      verdict result = .error err ∧ (final result).1.types = none) ∧
    (∀ m, TypeMap.ofRows rows = .ok m →
      verdict result = .ok () ∧ ∀ oid, (final result).1.lookup? oid = m.find? oid) ∧
    ∃ t e'', Request.execute Catalog.query true e' = .ok ⟨some t, rows.length⟩ e'' ∧
      ∀ i row b, rows[i]? = some row → RowBuffer.Sized b Catalog.columns.length →
        ∃ b', e''.fetchRow i t b = .ok b' ∧ Catalog.readRow e'' t b' = .ok row := by
  intro result
  have hundisturbed : e'.Undisturbed := by
    have hwith : (e.withCatalog (rows.map Catalog.cells)).Undisturbed :=
      ⟨h.fetch, h.decode, h.rowCount, h.described⟩
    exact hwith.of_alike hgiven
  have hresponse : e'.response Catalog.query = .rows Catalog.columns (rows.map Catalog.cells) :=
    (hgiven.response _).trans (Catalog.response_withCatalog e _)
  have hload := Catalog.verdict_load_of_response hundisturbed hresponse
  have hresult : result = withTypes (fun _ => .ok ()) (⟨none⟩, e') := congrFun ensureLoaded_eq _
  have hverdict : verdict result = TypeMap.ofRows rows >>= fun _ => .ok () := by
    rw [hresult, verdict_withTypes]
    exact congrArg (· >>= _) hload
  have htypes : (final result).1.types = (TypeMap.ofRows rows).toOption := by
    rw [hresult, final_withTypes_of_empty, hload]
  refine ⟨fun err herr => ?_, fun m hm => ?_, ?_⟩
  · rw [hverdict, htypes, herr]
    exact ⟨rfl, rfl⟩
  · rw [hverdict, hm]
    refine ⟨rfl, fun oid => ?_⟩
    rw [hm] at htypes
    unfold lookup?
    rw [htypes]
    rfl
  · obtain ⟨t, e'', hsent, hundisturbed', hshows⟩ :=
      Catalog.execute_withCatalog hundisturbed hresponse
    refine ⟨t, e'', hsent, fun i row b hrow hb => ?_⟩
    obtain ⟨b', hfetch, -, hread⟩ := Catalog.readRow_of_shows hundisturbed' hshows hrow hb
    exact ⟨b', hfetch, hread⟩

/-- Base types and arrays by turns, so that the last column is null in every other row. -/
theorem Registry.ensureLoaded_withCatalog_nested :
    Engine.initial.Undisturbed ∧
      ∃ m, TypeMap.ofRows TypeMap.nestedRows = .ok m ∧
        verdict (ensureLoaded ({}, Engine.initial.withCatalog (TypeMap.nestedRows.map Catalog.cells))) =
          .ok () ∧
        ∀ oid, (final (ensureLoaded ({},
          Engine.initial.withCatalog (TypeMap.nestedRows.map Catalog.cells)))).1.lookup? oid =
            m.find? oid := by
  have h : Engine.initial.Undisturbed := ⟨rfl, rfl, rfl, rfl⟩
  have hdistinct : (TypeMap.nestedRows.map CatalogRow.oid).Nodup := by decide
  have hkinds : ∀ row ∈ TypeMap.nestedRows, row.kind ∈ TypeMap.kinds := by decide
  obtain ⟨m, hm, -⟩ := TypeMap.find?_ofRows hdistinct hkinds
  obtain ⟨-, hloaded, -⟩ := ensureLoaded_withCatalog TypeMap.nestedRows h (.refl _)
  obtain ⟨hverdict, hlookup⟩ := hloaded m hm
  exact ⟨h, m, hm, hverdict, hlookup⟩

end SqlSession
