/-
Runwatch.Proofs.Store.Document — a database outlives its file being closed.

The file of a database holds its rows as one JSON document. All of them are
read back, whatever texts they hold, and putting them into a table one after
the other gives the table they came from (`ofBytes?_bytes`).
-/
import Runwatch.Proofs.Json.RoundTrip
import Runwatch.Proofs.Text.Utf8
import Runwatch.Store.File

namespace Runwatch.Store

open Json (Value Writable)

/-! ## Rows -/

theorem columnOfJson?_ofString? (s : Option String) :
    columnOfJson? (Value.ofString? s) = some s := by
  cases s <;> rfl

theorem Row.ofJson?_toJson (r : Row) : Row.ofJson? r.toJson = some r := by
  simp [toJson, ofJson?, columnOfJson?_ofString?]

theorem writable_ofString? (depth : Nat) (s : Option String) :
    Writable depth (Value.ofString? s) := by
  cases s with
  | none => exact .null depth
  | some s => exact .string depth s

theorem Row.writable_toJson (r : Row) (depth : Nat) : Writable (depth + 1) r.toJson := by
  refine .array fun v hv => ?_
  simp only [List.mem_cons, List.not_mem_nil, or_false] at hv
  rcases hv with rfl | rfl | rfl | rfl | rfl | rfl | rfl | rfl
  · exact writable_ofString? depth _
  · exact .string depth _
  · exact .string depth _
  · exact .string depth _
  · exact .string depth _
  · exact .string depth _
  · exact writable_ofString? depth _
  · exact writable_ofString? depth _

theorem mapM_ofJson? (rows : List Row) : (rows.map Row.toJson).mapM Row.ofJson? = some rows := by
  induction rows with
  | nil => rfl
  | cons r rows ih => simp [Row.ofJson?_toJson, ih]

/-! ## Tables -/

theorem Table.ext_rows {t t' : Table} (h : t.rows = t'.rows) : t = t' := by
  obtain ⟨rows, _⟩ := t
  obtain ⟨rows', _⟩ := t'
  obtain rfl : rows = rows' := h
  rfl

theorem Table.rows_put (t : Table) (r : Row) :
    (t.put r).rows = t.rows.filter (fun a => !a.sameToken r) ++ [r] := rfl

/-- Rows put in one after the other stand in their order, if none is about
the token of an earlier one. -/
theorem Table.foldl_put {rows : List Row} {t : Table}
    (h : (t.rows ++ rows).Pairwise fun a b => a.sameToken b = false) :
    (rows.foldl put t).rows = t.rows ++ rows := by
  induction rows generalizing t with
  | nil => simp
  | cons r rows ih =>
    have hkept : t.rows.filter (fun a => !a.sameToken r) = t.rows := by
      rw [List.filter_eq_self]
      intro a ha
      rw [(List.pairwise_append.mp h).2.2 a ha r List.mem_cons_self]
      rfl
    have hput : (t.put r).rows = t.rows ++ [r] := by rw [rows_put, hkept]
    rw [List.foldl_cons, ih (by rw [hput, List.append_assoc]; exact h), hput, List.append_assoc]
    rfl

theorem Table.ofRows_rows (t : Table) : ofRows t.rows = t := by
  refine Table.ext_rows ?_
  rw [ofRows, Table.foldl_put (t := empty) t.distinct]
  rfl

/-! ## The file -/

/-- What a file holds is the database that was written to it. -/
theorem Database.ofBytes?_bytes (d : Database) : Database.ofBytes? d.bytes = some d := by
  obtain ⟨table⟩ := d
  cases table with
  | none => rfl
  | some t =>
    have hwritable : Writable Json.maxNesting
        (.object [(tableName, .array (t.rows.map Row.toJson))]) := by
      refine .object (List.pairwise_singleton _ _) fun m hm => ?_
      rw [List.mem_singleton.mp hm]
      refine .array fun v hv => ?_
      obtain ⟨r, -, rfl⟩ := List.mem_map.mp hv
      exact r.writable_toJson 124
    have hparse := Json.parse?_compact hwritable
    have hsome : (Database.bytes ⟨some t⟩).isEmpty = false := by
      rw [Bool.eq_false_iff]
      intro hempty
      have htext := Text.Utf8.text?_bytes (Json.compact
        (.object [(tableName, .array (t.rows.map Row.toJson))]))
      rw [show Text.Utf8.bytes _ = [] from List.isEmpty_iff.mp hempty] at htext
      rw [← Option.some.inj htext] at hparse
      cases hparse
    rw [Database.ofBytes?, hsome]
    simp only [Database.bytes, Text.Utf8.text?_bytes, Option.bind_eq_bind, Option.bind_some, hparse,
      mapM_ofJson?, Table.ofRows_rows, beq_self_eq_true, if_true]
    rfl

end Runwatch.Store
