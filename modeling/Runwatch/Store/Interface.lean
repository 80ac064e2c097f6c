/-
Runwatch.Store.Interface — what every token store can do.

An `Interface` gives the four operations on stores of one kind; `memory` and
`database` are the two kinds there are. A store is changed by registering
and marking only.
-/
import Runwatch.Store.Memory
import Runwatch.Store.Table

namespace Runwatch.Store

open Time (Instant)

/-- The operations on token stores with states of type `σ`. -/
structure Interface (σ : Type) where
  /-- Enters a token, or enters it again. -/
  register : Instant → Registration → σ → σ × Except StoreError DeviceToken
  /-- The active tokens of a user. -/
  active : UserId → σ → Except StoreError (List ActiveToken)
  /-- Ends the use of a token; tells whether it was active. -/
  mark : Instant → String → String → σ → σ × Except StoreError Bool
  /-- The record of a token. -/
  get : String → σ → Except StoreError (Option DeviceToken)

/-- Stores in memory; they always answer. -/
def memory : Interface Memory where
  register now r m := ((m.register now r).1, .ok (m.register now r).2)
  active user m := .ok (m.active user)
  mark now token reason m := ((m.mark now token reason).1, .ok (m.mark now token reason).2)
  get token m := .ok (m.get? token)

/-- Stores in a database. -/
def database : Interface Database where
  register now r d := d.register now r
  active user d := d.active user
  mark now token reason d := d.mark now token reason
  get token d := d.get token

end Runwatch.Store
