/-
Runwatch.Store.Memory — device tokens kept in memory.

A memory store holds one record for each token. Registering a token that is
there keeps only the time of its creation; marking ends the use of a token
that is active and does nothing to another. The active tokens of a user are
listed by time of creation, then by token.
-/
import Runwatch.Token.Record

namespace Runwatch.Store

open Time (Instant)

/-- The records, one for each token. -/
structure Memory where
  records : List DeviceToken
  distinct : records.Pairwise fun a b => a.token ≠ b.token

namespace Memory

/-- No records. -/
def empty : Memory := ⟨[], .nil⟩

/-- The record of a token. -/
def get? (m : Memory) (token : String) : Option DeviceToken :=
  m.records.find? (·.token == token)

/-- The store with a record in place of the one of the same token. -/
def put (m : Memory) (r : DeviceToken) : Memory where
  records := m.records.filter (·.token != r.token) ++ [r]
  distinct := by
    refine List.pairwise_append.2 ⟨m.distinct.filter _, List.pairwise_singleton _ _, ?_⟩
    intro a ha b hb
    have hr : b = r := by simpa using hb
    have hne : (a.token != r.token) = true := (List.mem_filter.1 ha).2
    simpa [hr] using hne

/-- Enters a token, or enters it again; gives its record. -/
def register (m : Memory) (now : Instant) (r : Registration) : Memory × DeviceToken :=
  let createdAt := ((m.get? r.token).map (·.createdAt)).getD now
  let record : DeviceToken :=
    { token := r.token, user := r.user, environment := r.environment, bundle := r.bundle
      createdAt := createdAt, updatedAt := now, invalidatedAt := none, invalidatedReason := none }
  (m.put record, record)

/-- Whether a record comes before another one in a list, or at its place. -/
def listedBefore (a b : DeviceToken) : Bool :=
  a.createdAt.before b.createdAt || (a.createdAt == b.createdAt && !decide (b.token < a.token))

/-- The active tokens of a user. -/
def active (m : Memory) (user : UserId) : List ActiveToken :=
  ((m.records.filter fun r => r.user == user && r.isActive).mergeSort listedBefore).map
    DeviceToken.toActive

/-- A record that is not to be used any more. -/
def invalidated (r : DeviceToken) (now : Instant) (reason : String) : DeviceToken :=
  { r with updatedAt := now, invalidatedAt := some now, invalidatedReason := some reason }

/-- Ends the use of a token; tells whether it was active. -/
def mark (m : Memory) (now : Instant) (token reason : String) : Memory × Bool :=
  match m.get? token with
  | some r => if r.isActive then (m.put (invalidated r now reason), true) else (m, false)
  | none => (m, false)

end Memory

end Runwatch.Store
