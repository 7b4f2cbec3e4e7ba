import AgenticPay.ContractTypes

/-!
# Latch, circuit breaker and administration

The reentrancy latch and the pause gate every mutative function opens with, and
the entry points that belong to the administrator.
-/
namespace AgenticPayContract

open Soroban Contract

def acquireLock : Entry Unit := do
  let locked ← read (·.reentrancyLock.getD false)
  assert (locked = false) "reentrant call"
  write ({ · with reentrancyLock := some true })

def releaseLock : Entry Unit :=
  write ({ · with reentrancyLock := some false })

def requireNotPaused : Entry Unit := do
  let paused ← read (·.paused.getD false)
  assert (paused = false) "contract paused"

/-- The entry point `initialize`, whose name is reserved here. -/
def initializeContract (admin : Address) : Entry Unit := do
  requireAuth admin
  write ({ · with admin := some admin })
  write ({ · with projectCount := some 0 })
  write ({ · with receiptCount := some 0 })
  write ({ · with reentrancyLock := some false })
  write ({ · with paused := some false })

def getAdmin : Entry Address := do
  let stored ← read (·.admin)
  expect stored "Not initialized"

def pause (admin : Address) : Entry Unit := do
  requireAuth admin
  let storedAdmin ← getAdmin
  assert (admin = storedAdmin) "Only admin can pause"
  acquireLock
  write ({ · with paused := some true })
  publish (.circuitPaused true)
  releaseLock

def unpause (admin : Address) : Entry Unit := do
  requireAuth admin
  let storedAdmin ← getAdmin
  assert (admin = storedAdmin) "Only admin can unpause"
  acquireLock
  write ({ · with paused := some false })
  publish (.circuitPaused false)
  releaseLock

def isPaused : Entry Bool := read (·.paused.getD false)

def setMetadata (admin : Address) (key value : String) : Entry Unit := do
  requireNotPaused
  requireAuth admin
  acquireLock
  let storedAdmin ← getAdmin
  assert (admin = storedAdmin) "Only admin can set metadata"
  write (fun s => { s with metadata := Function.update s.metadata key (some value) })
  publish (.metaSet key value)
  releaseLock

def getMetadata (key : String) : Entry (Option String) := read (·.metadata key)

def removeMetadata (admin : Address) (key : String) : Entry Unit := do
  requireNotPaused
  requireAuth admin
  acquireLock
  let storedAdmin ← getAdmin
  assert (admin = storedAdmin) "Only admin can remove metadata"
  write (fun s => { s with metadata := Function.update s.metadata key none })
  publish (.metaDel key)
  releaseLock

def upgrade (admin : Address) (newWasmHash : BytesN32) : Entry Unit := do
  requireAuth admin
  let storedAdmin ← getAdmin
  assert (admin = storedAdmin) "Only admin can upgrade"
  requireUploaded newWasmHash
  write ({ · with code := some newWasmHash })

def version : Entry Nat := pure 1

/-- What the opening of a gated entry point has established once it is passed:
the circuit breaker is off, `caller` signed, and no call is in flight. -/
structure Entered (env : Env) (w : World) (caller : Address) : Prop where
  active : paused w = false
  signed : caller ∈ env.auths
  free : locked w = false

theorem entered_iff {env : Env} {w : World} {caller : Address} :
    Entered env w caller ↔ paused w = false ∧ caller ∈ env.auths ∧ locked w = false :=
  ⟨fun h => ⟨h.active, h.signed, h.free⟩, fun h => ⟨h.1, h.2.1, h.2.2⟩⟩

/-- The world an entry point leaves when it stores `s`, publishes `es` and
releases the latch. -/
def leave (w : World) (s : Storage) (es : List Event) : World :=
  ⟨{ s with reentrancyLock := some false }, w.events ++ es⟩

section Returns

variable {env : Env} {w w' : World} {u : Unit}

@[simp] theorem requireNotPaused_ok :
    requireNotPaused env w = .ok (u, w') ↔ paused w = false ∧ w = w' := by
  simp [requireNotPaused, paused]

@[simp] theorem acquireLock_ok :
    acquireLock env w = .ok (u, w') ↔ locked w = false ∧
      (⟨{ w.storage with reentrancyLock := some true }, w.events⟩ : World) = w' := by
  simp [acquireLock, locked]

@[simp] theorem releaseLock_ok :
    releaseLock env w = .ok (u, w') ↔ leave w w.storage [] = w' := by
  simp [releaseLock, leave]

@[simp] theorem getAdmin_ok {a : Address} :
    getAdmin env w = .ok (a, w') ↔ w.storage.admin = some a ∧ w = w' := by
  simp [getAdmin]

theorem initializeContract_ok {admin : Address} :
    initializeContract admin env w = .ok (u, w') ↔ admin ∈ env.auths ∧
      leave w { w.storage with admin := some admin, projectCount := some 0,
                               receiptCount := some 0, paused := some false } [] = w' := by
  simp [initializeContract, leave]

theorem pause_ok {admin : Address} :
    pause admin env w = .ok (u, w') ↔
      admin ∈ env.auths ∧ w.storage.admin = some admin ∧ locked w = false ∧
      leave w { w.storage with paused := some true } [.circuitPaused true] = w' := by
  simp [pause, leave]

theorem unpause_ok {admin : Address} :
    unpause admin env w = .ok (u, w') ↔
      admin ∈ env.auths ∧ w.storage.admin = some admin ∧ locked w = false ∧
      leave w { w.storage with paused := some false } [.circuitPaused false] = w' := by
  simp [unpause, leave]

theorem setMetadata_ok {admin : Address} {key value : String} :
    setMetadata admin key value env w = .ok (u, w') ↔
      Entered env w admin ∧ w.storage.admin = some admin ∧
      leave w { w.storage with metadata := Function.update w.storage.metadata key (some value) }
        [.metaSet key value] = w' := by
  simp [setMetadata, leave, entered_iff, and_assoc]

theorem removeMetadata_ok {admin : Address} {key : String} :
    removeMetadata admin key env w = .ok (u, w') ↔
      Entered env w admin ∧ w.storage.admin = some admin ∧
      leave w { w.storage with metadata := Function.update w.storage.metadata key none }
        [.metaDel key] = w' := by
  simp [removeMetadata, leave, entered_iff, and_assoc]

/-- The upgrade takes no latch, so the one stored before stays as it is. -/
theorem upgrade_ok {admin : Address} {newWasmHash : BytesN32} :
    upgrade admin newWasmHash env w = .ok (u, w') ↔
      admin ∈ env.auths ∧ w.storage.admin = some admin ∧ newWasmHash ∈ env.uploaded ∧
      (⟨{ w.storage with code := some newWasmHash }, w.events⟩ : World) = w' := by
  simp [upgrade]

end Returns

end AgenticPayContract
