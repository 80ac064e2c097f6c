/-
Runwatch.Proofs.Store.Registering — a registration that fails is in force.

A database that registers a token writes the row first and reads it again
behind that. All that it writes can be read; of an old row only the time of
creation stays. So there are two ways for a registration to fail: there is no
table, or the old row has a time of creation that is none. In the second case
the row is written all the same: the token is in use again, and by its new
user.

  §1 Rows    — the table behind a registration (`Table.Enters`): the row that
               is written, and that no other row is touched.
  §2 Answers — when the row that was written can be read
               (`readRecord_enteredRow`).

The main statement is `Database.failed_register_is_in_force`.
-/
import Runwatch.Proofs.Store.Agreement

namespace Runwatch.Store

open Time (Instant)

/-! ## §1 Rows -/

namespace Table

theorem find?_put (t : Table) (r : Row) (token : String) :
    (t.put r).find? token = if r.token = some token then some r else t.find? token := by
  rw [find?, rows_put, List.find?_append, List.find?_filter]
  by_cases h : r.token = some token
  · have hnone : (t.rows.find? fun a => decide ((!a.sameToken r) = true ∧
        (a.token == some token) = true)) = none := by
      rw [List.find?_eq_none]
      intro a _
      simp only [Row.sameToken, h, decide_eq_true_eq]
      rintro ⟨hother, htoken⟩
      simp [beq_iff_eq.mp htoken] at hother
    rw [hnone, if_pos h]
    simp [h]
  · have hsame : (t.rows.find? fun a => decide ((!a.sameToken r) = true ∧
        (a.token == some token) = true)) = t.find? token := by
      refine congrArg (fun p => List.find? p t.rows) (funext fun a => ?_)
      rw [Bool.eq_iff_iff]
      simp only [Row.sameToken, decide_eq_true_eq, beq_iff_eq]
      constructor
      · rintro ⟨-, htoken⟩
        exact htoken
      · intro htoken
        refine ⟨?_, htoken⟩
        simpa [htoken] using Ne.symm h
    rw [hsame, if_neg h]
    simp [h]

/-- A row that is put in touches no row of another token, and none without
token. -/
theorem filter_put (t : Table) {r : Row} {token : String} (h : r.token = some token) :
    (t.put r).rows.filter (·.token != some token) = t.rows.filter (·.token != some token) := by
  rw [rows_put, List.filter_append, List.filter_filter]
  have hlast : [r].filter (·.token != some token) = [] := by simp [h]
  rw [hlast, List.append_nil]
  refine List.filter_congr fun a _ => ?_
  by_cases ha : a.token = some token <;> simp [Row.sameToken, h, ha]

/-- The row that a registration writes. Of a row that is there it keeps the
time of creation. -/
def enteredRow (t : Table) (now : Instant) (r : Registration) : Row where
  token := some r.token
  user := r.user.text
  environment := r.environment.word
  bundle := r.bundle
  createdAt := ((t.find? r.token).map (·.createdAt)).getD now.rfc3339
  updatedAt := now.rfc3339
  invalidatedAt := none
  invalidatedReason := none

/-- What a registration makes of a table: all rows but that of its token stay
as they are, and that one is written and is listed for the user. -/
structure Enters (t t' : Table) (now : Instant) (r : Registration) : Prop where
  others : t'.rows.filter (·.token != some r.token) = t.rows.filter (·.token != some r.token)
  row : t'.find? r.token = some (t.enteredRow now r)
  listed : t.enteredRow now r ∈ t'.active r.user.text
  address : (t.enteredRow now r).readAddress = .ok ⟨r.token, r.environment, r.bundle⟩

theorem mem_active {t : Table} {user : String} {row : Row} :
    row ∈ t.active user ↔ row ∈ t.rows ∧ row.user = user ∧ row.invalidatedAt = none := by
  simp [active, Row.isActive]

theorem register_eq (t : Table) (now : Instant) (r : Registration) :
    t.register now.rfc3339 r = t.put (t.enteredRow now r) := rfl

theorem find?_register (t : Table) (now : Instant) (r : Registration) :
    (t.register now.rfc3339 r).find? r.token = some (t.enteredRow now r) := by
  rw [register_eq, find?_put]
  exact if_pos rfl

theorem enters_register (t : Table) (now : Instant) (r : Registration) :
    t.Enters (t.register now.rfc3339 r) now r where
  others := filter_put t rfl
  row := find?_register t now r
  listed := by
    have hrow := List.mem_of_find?_eq_some (find?_register t now r)
    exact mem_active.mpr ⟨hrow, rfl, rfl⟩
  address := by
    simp only [Row.readAddress, Row.readToken, enteredRow, Row.readEnvironment_word]
    rfl

end Table

/-! ## §2 Answers -/

namespace Row

theorem readTime_eq_error_iff {text : String} {e : StoreError} :
    readTime text = .error e ↔ ∃ cause, Time.parseStrict text = .error cause ∧
      e = .time text cause := by
  unfold readTime
  cases Time.parseStrict text with
  | ok t => simp
  | error cause => simp [eq_comm]

/-- All of the row can be read, but for the time of creation if that is of
old. -/
theorem readRecord_enteredRow (t : Table) {now : Instant} (hnow : now.IsCommon)
    (r : Registration) (e : StoreError) :
    (t.enteredRow now r).readRecord = .error e ↔
      readTime (t.enteredRow now r).createdAt = .error e := by
  have htoken : (t.enteredRow now r).readToken = .ok r.token := rfl
  have hword : readEnvironment (t.enteredRow now r).environment = .ok r.environment :=
    readEnvironment_word r.environment
  have hupdated : readTime (t.enteredRow now r).updatedAt = .ok now := readTime_rfc3339 hnow
  have hactive : readTime? (t.enteredRow now r).invalidatedAt = .ok none := rfl
  simp only [readRecord, htoken, hword, hupdated, hactive]
  cases readTime (t.enteredRow now r).createdAt with
  | ok created =>
    constructor <;> intro h <;> cases h
  | error cause =>
    constructor <;> intro h <;> cases h <;> rfl

theorem readTime_createdAt (t : Table) {now : Instant} (hnow : now.IsCommon) (r : Registration)
    (e : StoreError) : readTime (t.enteredRow now r).createdAt = .error e ↔
      ∃ old, t.find? r.token = some old ∧ readTime old.createdAt = .error e := by
  cases hold : t.find? r.token with
  | none =>
    have hfresh : (t.enteredRow now r).createdAt = now.rfc3339 := by simp [Table.enteredRow, hold]
    simp [hfresh, readTime_rfc3339 hnow]
  | some old =>
    have hkept : (t.enteredRow now r).createdAt = old.createdAt := by
      simp [Table.enteredRow, hold]
    simp [hkept]

end Row

namespace Database

/-- A registration answers with what it reads of the row that it wrote. -/
theorem register_of_table (t : Table) (now : Instant) (r : Registration) :
    register ⟨some t⟩ now r =
      (⟨some (t.register now.rfc3339 r)⟩, (t.enteredRow now r).readRecord) := by
  have hload : load (t.register now.rfc3339 r) r.token =
      (t.enteredRow now r).readRecord.map some := by
    rw [load, Table.find?_register]
  simp only [register, needTable, hload]
  cases (t.enteredRow now r).readRecord <;> rfl

/-- **A registration that fails is in force.** It fails if there is no table,
and then nothing changes; and else exactly if there is a row of the token
whose time of creation is none. That row is written all the same, as that of
any registration is: it belongs to the new user, is active, and is listed.
Whether it fails or not, no other row is touched. -/
theorem failed_register_is_in_force (d : Database) {now : Instant} (hnow : now.IsCommon)
    (r : Registration) :
    (d.table = none → d.register now r = (d, .error (.table (.missingTable tableName)))) ∧
    ∀ t, d.table = some t → ∃ t', (d.register now r).1 = ⟨some t'⟩ ∧ t.Enters t' now r ∧
      ∀ e, (d.register now r).2 = .error e ↔
        ∃ old cause, t.find? r.token = some old ∧
          Time.parseStrict old.createdAt = .error cause ∧ e = .time old.createdAt cause := by
  obtain ⟨table⟩ := d
  constructor
  · intro hnone
    obtain rfl : table = none := hnone
    rfl
  · intro t ht
    obtain rfl : table = some t := ht
    refine ⟨t.register now.rfc3339 r, ?_, t.enters_register now r, fun e => ?_⟩
    · rw [register_of_table]
    · rw [register_of_table, Row.readRecord_enteredRow t hnow, Row.readTime_createdAt t hnow]
      simp only [Row.readTime_eq_error_iff]
      constructor
      · rintro ⟨old, hold, cause, hcause, he⟩
        exact ⟨old, cause, hold, hcause, he⟩
      · rintro ⟨old, cause, hold, hcause, he⟩
        exact ⟨old, hold, cause, hcause, he⟩

/-- A row of another program: its token is not in use any more, and its time
of creation is none. -/
def misdatedRow : Row where
  token := some "a"
  user := "ada"
  environment := "production"
  bundle := "app"
  createdAt := "x"
  updatedAt := "2026-01-01T00:00:00Z"
  invalidatedAt := some "2026-01-02T00:00:00Z"
  invalidatedReason := some "Unregistered"

/-- A table with this row. -/
def misdated : Table := Table.empty.put misdatedRow

/-- Somebody else registers the token. -/
def takenOver : Registration := ⟨"a", ⟨"eve"⟩, .development, "app"⟩

theorem misdated_is_in_force :
    Instant.IsCommon ⟨0, 0⟩ ∧
    ∃ t' row, (register ⟨some misdated⟩ ⟨0, 0⟩ takenOver).1 = ⟨some t'⟩ ∧
      (register ⟨some misdated⟩ ⟨0, 0⟩ takenOver).2 = .error (.time "x" .tooShort) ∧
      t'.find? "a" = some row ∧ row.user = "eve" ∧ row.createdAt = "x" ∧
      row ∈ t'.active "eve" := by
  have hcommon : Instant.IsCommon ⟨0, 0⟩ := by decide
  obtain ⟨t', ht', henters, hfails⟩ :=
    (failed_register_is_in_force ⟨some misdated⟩ hcommon takenOver).2 misdated rfl
  refine ⟨hcommon, t', _, ht', ?_, henters.row, rfl, by decide, henters.listed⟩
  exact (hfails _).mpr ⟨misdatedRow, .tooShort, rfl, by decide, rfl⟩

/-- A registration that fails need not leave the rows as they are. -/
theorem failed_register_moves :
    ¬ ∀ (t : Table) (now : Instant) (r : Registration) (e : StoreError),
      (register ⟨some t⟩ now r).2 = .error e →
        ∀ t', (register ⟨some t⟩ now r).1 = ⟨some t'⟩ →
          ∀ token, t'.find? token = t.find? token := by
  intro h
  have hkept := h misdated ⟨0, 0⟩ takenOver (.time "x" .tooShort) (by decide) _ rfl "a"
  exact absurd (congrArg (Option.map (·.user)) hkept) (by decide)

end Database

end Runwatch.Store
