/-
Runwatch.Proofs.Store.Agreement — both kinds of stores answer alike.

A memory store sorts instants, a database sorts their texts, writes texts and
parses them again, and may be closed and opened between any two calls. Still
no caller can tell them apart. The rows of the database are the records of
the memory store, in their order, written as texts (`Mirrors`), and every
call keeps it so and gives the same answer on both sides. This rests on the
texts of instants being ordered and read back as the instants are.

  §1 Records as rows — what is written is read back and sorted alike.
  §2 Calls — each call keeps `Mirrors` (`Mirrors.call`).
  §3 Runs — calls on either store, with the database closed in between.

The main statement is `Database.answers_as_memory`.
-/
import Runwatch.Proofs.Store.Document
import Runwatch.Proofs.Store.History
import Runwatch.Proofs.Time.Written
import Runwatch.Store.Interface

namespace Runwatch.Store

open Time (Instant)

/-! ## §1 Records as rows -/

/-- A record whose times are written in years of four digits. -/
structure IsCommon (r : DeviceToken) : Prop where
  createdAt : r.createdAt.IsCommon
  updatedAt : r.updatedAt.IsCommon
  invalidatedAt : ∀ t ∈ r.invalidatedAt, t.IsCommon

namespace Row

/-- A record as a row. -/
def ofRecord (r : DeviceToken) : Row where
  token := some r.token
  user := r.user.text
  environment := r.environment.word
  bundle := r.bundle
  createdAt := r.createdAt.rfc3339
  updatedAt := r.updatedAt.rfc3339
  invalidatedAt := r.invalidatedAt.map Instant.rfc3339
  invalidatedReason := r.invalidatedReason

theorem sameToken_ofRecord (a b : DeviceToken) :
    (ofRecord a).sameToken (ofRecord b) = (a.token == b.token) := by
  rw [Bool.eq_iff_iff]
  simp [sameToken, ofRecord]

theorem isActive_ofRecord (r : DeviceToken) : (ofRecord r).isActive = r.isActive := by
  simp [isActive, ofRecord, DeviceToken.isActive]

/-- The row of a record whose use has ended. -/
theorem ofRecord_invalidated (r : DeviceToken) (now : Instant) (reason : String) :
    ofRecord (Memory.invalidated r now reason) =
      { ofRecord r with
        updatedAt := now.rfc3339
        invalidatedAt := some now.rfc3339
        invalidatedReason := some reason } := by
  simp only [ofRecord, Memory.invalidated, Option.map_some]

theorem readEnvironment_word (e : Environment) : readEnvironment e.word = .ok e := by
  cases e <;> rfl

theorem readTime_rfc3339 {t : Instant} (ht : t.IsCommon) : readTime t.rfc3339 = .ok t := by
  rw [readTime, Time.parseStrict_rfc3339 ht]

theorem readTime?_map {t : Option Instant} (ht : ∀ u ∈ t, u.IsCommon) :
    readTime? (t.map Instant.rfc3339) = .ok t := by
  cases t with
  | none => rfl
  | some t =>
    rw [Option.map_some, readTime?, readTime_rfc3339 (ht t rfl)]
    rfl

/-- A record is read back from its row. -/
theorem readRecord_ofRecord {r : DeviceToken} (hr : IsCommon r) :
    (ofRecord r).readRecord = .ok r := by
  have htoken : (ofRecord r).readToken = .ok r.token := rfl
  simp only [readRecord, htoken]
  simp only [ofRecord, readEnvironment_word, readTime_rfc3339 hr.createdAt,
    readTime_rfc3339 hr.updatedAt, readTime?_map hr.invalidatedAt]
  rfl

theorem readAddress_ofRecord (r : DeviceToken) : (ofRecord r).readAddress = .ok r.toActive := by
  have htoken : (ofRecord r).readToken = .ok r.token := rfl
  simp only [readAddress, htoken]
  simp only [ofRecord, readEnvironment_word]
  rfl

/-- Rows are sorted as their records are. -/
theorem listedBefore_ofRecord {a b : DeviceToken} (ha : a.createdAt.IsCommon)
    (hb : b.createdAt.IsCommon) :
    (ofRecord a).listedBefore (ofRecord b) = Memory.listedBefore a b := by
  rw [Bool.eq_iff_iff]
  simp [listedBefore, Memory.listedBefore, ofRecord, textBefore,
    Time.rfc3339_lt_rfc3339 ha hb, Time.rfc3339_inj ha hb]

/-- Sorted rows are those of the sorted records. -/
theorem mergeSort_ofRecord {records : List DeviceToken}
    (h : ∀ r ∈ records, r.createdAt.IsCommon) :
    (records.map ofRecord).mergeSort listedBefore =
      (records.mergeSort Memory.listedBefore).map ofRecord := by
  refine (List.map_mergeSort ?_).symm
  intro a ha b hb
  exact (listedBefore_ofRecord (h a ha) (h b hb)).symm

/-- The order of rows is that of the bytes of their texts. -/
theorem listedBefore_iff_bytes {a b : Row} {token token' : String} (ha : a.token = some token)
    (hb : b.token = some token') : a.listedBefore b = true ↔
      Text.Utf8.bytes a.createdAt < Text.Utf8.bytes b.createdAt ∨
        a.createdAt = b.createdAt ∧ ¬ Text.Utf8.bytes token' < Text.Utf8.bytes token := by
  simp [listedBefore, textBefore, ha, hb, Text.Utf8.bytes_lt_bytes]

end Row

/-! ## §2 Calls -/

/-- The rows of a table are the records of a memory store as texts. -/
structure Mirrors (t : Table) (m : Memory) : Prop where
  rows : t.rows = m.records.map Row.ofRecord
  common : ∀ r ∈ m.records, IsCommon r

namespace Mirrors

variable {t : Table} {m : Memory}

theorem empty : Mirrors Table.empty Memory.empty := ⟨rfl, nofun⟩

theorem find? (h : Mirrors t m) (token : String) :
    t.find? token = (m.get? token).map Row.ofRecord := by
  rw [Table.find?, h.rows, List.find?_map, Memory.get?]
  rfl

theorem put (h : Mirrors t m) {r : DeviceToken} (hr : IsCommon r) :
    Mirrors (t.put (Row.ofRecord r)) (m.put r) := by
  refine ⟨?_, ?_⟩
  · rw [Table.rows_put, h.rows, Memory.put, List.map_append, List.filter_map]
    refine congrArg (fun p => (m.records.filter p).map Row.ofRecord ++ [Row.ofRecord r]) ?_
    funext a
    rw [Function.comp, Row.sameToken_ofRecord]
    rfl
  · intro a ha
    cases List.mem_append.mp ha with
    | inl ha => exact h.common a (List.mem_filter.mp ha).1
    | inr ha =>
      rw [List.mem_singleton.mp ha]
      exact hr

theorem common_of_get? (h : Mirrors t m) {token : String} {r : DeviceToken}
    (hr : m.get? token = some r) : IsCommon r :=
  h.common r (List.mem_of_find?_eq_some hr)

/-- A record is loaded as it is. -/
theorem load (h : Mirrors t m) (token : String) :
    Database.load t token = .ok (m.get? token) := by
  rw [Database.load, h.find? token]
  cases hr : m.get? token with
  | none => rfl
  | some r =>
    rw [Option.map_some]
    simp only [Row.readRecord_ofRecord (h.common_of_get? hr)]
    rfl

/-- A registration writes the time of creation that is there, or its own. -/
theorem register (h : Mirrors t m) {now : Instant} (hnow : now.IsCommon) (r : Registration) :
    Mirrors (t.register now.rfc3339 r) (m.register now r).1 := by
  have hcreated : (((m.get? r.token).map (·.createdAt)).getD now).IsCommon := by
    cases hr : m.get? r.token with
    | none => exact hnow
    | some old => exact (h.common_of_get? hr).createdAt
  have hrow : ((t.find? r.token).map (·.createdAt)).getD now.rfc3339 =
      (((m.get? r.token).map (·.createdAt)).getD now).rfc3339 := by
    rw [h.find? r.token]
    cases m.get? r.token <;> rfl
  have hput := h.put (r := (m.register now r).2) ⟨hcreated, hnow, nofun⟩
  rw [Table.register, hrow]
  exact hput

theorem mark (h : Mirrors t m) {now : Instant} (hnow : now.IsCommon) (token reason : String) :
    Mirrors (t.mark now.rfc3339 token reason).1 (m.mark now token reason).1 ∧
      (t.mark now.rfc3339 token reason).2 = (m.mark now token reason).2 := by
  rw [Table.mark, Memory.mark, h.find? token]
  cases hr : m.get? token with
  | none => exact ⟨h, rfl⟩
  | some r =>
    simp only [Option.map_some, Row.isActive_ofRecord]
    split
    · have hold := h.common_of_get? hr
      have hcommon : IsCommon (Memory.invalidated r now reason) := by
        refine ⟨hold.createdAt, hnow, ?_⟩
        rintro _ ⟨⟩
        exact hnow
      have hput := h.put hcommon
      rw [Row.ofRecord_invalidated] at hput
      exact ⟨hput, rfl⟩
    · exact ⟨h, rfl⟩

/-- A listing is sorted alike and gives the same addresses. -/
theorem active (h : Mirrors t m) (user : UserId) :
    (t.active user.text).mapM Row.readAddress = .ok (m.active user) := by
  have hkept : (t.rows.filter fun r => r.user == user.text && r.isActive) =
      (m.records.filter fun r => r.user == user && r.isActive).map Row.ofRecord := by
    rw [h.rows, List.filter_map]
    refine congrArg (fun p => (m.records.filter p).map Row.ofRecord) ?_
    funext r
    have huser : (r.user.text == user.text) = (r.user == user) := by
      obtain ⟨text⟩ := user
      obtain ⟨text'⟩ := r.user
      rw [Bool.eq_iff_iff]
      simp
    rw [Function.comp, Row.isActive_ofRecord]
    exact congrArg (· && r.isActive) huser
  have hsorted : t.active user.text =
      ((m.records.filter fun r => r.user == user && r.isActive).mergeSort
        Memory.listedBefore).map Row.ofRecord := by
    rw [Table.active, hkept]
    exact Row.mergeSort_ofRecord fun r hr => (h.common r (List.mem_filter.mp hr).1).createdAt
  have haddress : Row.readAddress ∘ Row.ofRecord = fun r => pure r.toActive :=
    funext Row.readAddress_ofRecord
  rw [hsorted, List.mapM_map, haddress, List.mapM_pure]
  rfl

end Mirrors

/-- A call on a store. -/
inductive Call where
  | register (r : Registration)
  | active (user : UserId)
  | mark (token reason : String)
  | get (token : String)
  deriving DecidableEq, Repr

/-- What a call gives. -/
inductive Answer where
  | registered (result : Except StoreError DeviceToken)
  | listed (result : Except StoreError (List ActiveToken))
  | marked (result : Except StoreError Bool)
  | found (result : Except StoreError (Option DeviceToken))

/-- Makes a call on a store. -/
def Interface.call {σ : Type} (i : Interface σ) (now : Instant) (s : σ) : Call → σ × Answer
  | .register r => ((i.register now r s).1, .registered (i.register now r s).2)
  | .active user => (s, .listed (i.active user s))
  | .mark token reason => ((i.mark now token reason s).1, .marked (i.mark now token reason s).2)
  | .get token => (s, .found (i.get token s))

/-- Each call keeps the rows and the records alike and gives the same
answer. -/
theorem Mirrors.call {t : Table} {m : Memory} (h : Mirrors t m) {now : Instant}
    (hnow : now.IsCommon) (c : Call) :
    (∃ t', (database.call now ⟨some t⟩ c).1 = ⟨some t'⟩ ∧ Mirrors t' (memory.call now m c).1) ∧
      (database.call now ⟨some t⟩ c).2 = (memory.call now m c).2 := by
  cases c with
  | register r =>
    have hnext := h.register hnow r
    have hloaded := hnext.load r.token
    rw [Memory.get?_register, if_pos rfl] at hloaded
    refine ⟨⟨_, rfl, hnext⟩, congrArg Answer.registered ?_⟩
    simp only [database, Database.register, Database.needTable, hloaded]
    rfl
  | active user =>
    exact ⟨⟨t, rfl, h⟩, congrArg Answer.listed (h.active user)⟩
  | mark token reason =>
    obtain ⟨hnext, hanswer⟩ := h.mark hnow token reason
    exact ⟨⟨_, rfl, hnext⟩, congrArg (Answer.marked ∘ .ok) hanswer⟩
  | get token =>
    exact ⟨⟨t, rfl, h⟩, congrArg Answer.found (h.load token)⟩

/-! ## §3 Runs -/

/-- The answers of a store to calls made one after the other. -/
def Interface.answers {σ : Type} (i : Interface σ) (s : σ) : List (Instant × Call) → List Answer
  | [] => []
  | (now, c) :: rest => (i.call now s c).2 :: i.answers (i.call now s c).1 rest

/-- What is done with a database: calls are made on it, and it is closed and
opened again. -/
inductive Step where
  | call (now : Instant) (c : Call)
  | reopen
  deriving DecidableEq, Repr

/-- The calls among some steps. -/
def calls : List Step → List (Instant × Call)
  | [] => []
  | .call now c :: rest => (now, c) :: calls rest
  | .reopen :: rest => calls rest

namespace Database

/-- The database that is found when its file is opened again, and migrated. -/
def reopened? (d : Database) : Option Database := (ofBytes? d.bytes).map migrate

/-- The answers of a database that is closed and opened again between some of
the calls; none if its file cannot be read. -/
def answers? (d : Database) : List Step → Option (List Answer)
  | [] => some []
  | .call now c :: rest =>
    ((database.call now d c).1.answers? rest).map ((database.call now d c).2 :: ·)
  | .reopen :: rest => d.reopened?.bind fun d => d.answers? rest

end Database

namespace Mirrors

variable {t : Table} {m : Memory}

theorem answers (h : Mirrors t m) {cs : List (Instant × Call)}
    (hcommon : ∀ c ∈ cs, c.1.IsCommon) :
    database.answers ⟨some t⟩ cs = memory.answers m cs := by
  induction cs generalizing t m with
  | nil => rfl
  | cons c cs ih =>
    obtain ⟨now, c⟩ := c
    obtain ⟨⟨t', hdatabase, hnext⟩, hanswer⟩ := h.call (hcommon _ List.mem_cons_self) c
    rw [Interface.answers, Interface.answers, hanswer, hdatabase,
      ih hnext fun c hc => hcommon c (List.mem_cons_of_mem _ hc)]

/-- A database that is opened again is as it was. -/
theorem reopened? (t : Table) : Database.reopened? ⟨some t⟩ = some ⟨some t⟩ := by
  rw [Database.reopened?, Database.ofBytes?_bytes]
  rfl

theorem answers? (h : Mirrors t m) {steps : List Step}
    (hcommon : ∀ c ∈ calls steps, c.1.IsCommon) :
    Database.answers? ⟨some t⟩ steps = some (memory.answers m (calls steps)) := by
  induction steps generalizing t m with
  | nil => rfl
  | cons step steps ih =>
    cases step with
    | call now c =>
      obtain ⟨⟨t', hdatabase, hnext⟩, hanswer⟩ := h.call (hcommon _ List.mem_cons_self) c
      rw [Database.answers?, hanswer, hdatabase,
        ih hnext fun c hc => hcommon c (List.mem_cons_of_mem _ hc)]
      rfl
    | reopen => rw [Database.answers?, reopened?, Option.bind_some, ih h hcommon, calls]

end Mirrors

namespace Database

/-- **Both kinds of stores answer alike.** Calls made on a migrated empty
database and on an empty memory store, each at the same time on either side
and in a year of four digits, give the same answers, in whatever order the
times come; also if the database is closed and opened again in between. -/
theorem answers_as_memory (steps : List Step) (hcommon : ∀ c ∈ calls steps, c.1.IsCommon) :
    database.answers (migrate .empty) (calls steps) = memory.answers .empty (calls steps) ∧
      answers? (migrate .empty) steps = some (memory.answers .empty (calls steps)) :=
  ⟨Mirrors.empty.answers hcommon, Mirrors.empty.answers? hcommon⟩

/-- Two tokens registered at one time of the last year, one of them marked
and moved while the clock runs back to the first year, with the database
opened again in between. -/
def movedBack : List Step :=
  [.call ⟨253402300799, 120000000⟩ (.register ⟨"b", ⟨"ada"⟩, .production, "app"⟩),
   .call ⟨253402300799, 120000000⟩ (.register ⟨"a", ⟨"ada"⟩, .development, "app"⟩),
   .reopen,
   .call ⟨253402300799, 0⟩ (.active ⟨"ada"⟩),
   .call ⟨0, 1⟩ (.mark "b" "Unregistered"),
   .call ⟨-1, 999999999⟩ (.mark "c" "Unregistered"),
   .reopen,
   .call ⟨-62167219200, 0⟩ (.register ⟨"b", ⟨"eve"⟩, .production, "app"⟩),
   .call ⟨-62167219200, 500000⟩ (.get "b"),
   .call ⟨-62167219200, 0⟩ (.active ⟨"eve"⟩)]

theorem movedBack_as_memory :
    (∀ c ∈ calls movedBack, c.1.IsCommon) ∧
    database.answers (migrate .empty) (calls movedBack) = memory.answers .empty (calls movedBack) ∧
      answers? (migrate .empty) movedBack = some (memory.answers .empty (calls movedBack)) :=
  ⟨by decide, answers_as_memory movedBack (by decide)⟩

end Database

end Runwatch.Store
