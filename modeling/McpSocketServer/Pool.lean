import McpSocketServer.SocketClient

/-!
# The connection pool of one target (`pool.py`)

The critical sections of `TargetPool` as functions. The idle list holds clients of any
kind, so that it can carry client objects or references to them. Its head is the end of the
Python list, where `append` and `pop` work.
-/

namespace McpSocketServer

/-- `MAX_CONN_PER_TARGET`. -/
def maxConnPerTarget : Nat := 5

/-- `IDLE_TIMEOUT`, in milliseconds. -/
def idleTimeout : Int := 600000

/-- `_PooledConn`. -/
structure PooledConn (κ : Type) where
  client : κ
  lastUsed : Int
  deriving DecidableEq, Repr

/-- The attributes of `TargetPool` that its condition variable guards. -/
structure TargetPool (κ : Type) where
  idle : List (PooledConn κ) := []
  inuse : Int := 0
  deriving DecidableEq, Repr

namespace TargetPool

variable {κ : Type}

/-- The guard of the waiting loop in `acquire`. -/
def full (p : TargetPool κ) : Prop := (maxConnPerTarget : Int) ≤ p.inuse

instance (p : TargetPool κ) : Decidable p.full := inferInstanceAs (Decidable (_ ≤ _))

/-- What the loop over the idle list takes out and leaves. -/
structure Popped (κ : Type) where
  expired : List κ
  reuse : Option κ
  idle : List (PooledConn κ)

/-- The loop over the idle list in `acquire`. -/
def popIdle (now : Int) : List (PooledConn κ) → Popped κ
  | [] => ⟨[], none, []⟩
  | pc :: idle =>
    if idleTimeout < now - pc.lastUsed then
      let r := popIdle now idle
      { r with expired := pc.client :: r.expired }
    else ⟨[], some pc.client, idle⟩

/-- The rest of the critical section of `acquire` once a slot is free. -/
def takeSlot (p : TargetPool κ) (now : Int) : Popped κ × TargetPool κ :=
  let r := popIdle now p.idle
  (r, { idle := r.idle, inuse := p.inuse + 1 })

/-- The critical section after a failed `connect`. -/
def giveSlotBack (p : TargetPool κ) : TargetPool κ := { p with inuse := max 0 (p.inuse - 1) }

/-- The critical section of `release`. -/
def release (p : TargetPool κ) (client : κ) (healthy : Bool) (now : Int) : TargetPool κ :=
  let p := p.giveSlotBack
  if healthy then { p with idle := ⟨client, now⟩ :: p.idle } else p

/-- Every idle connection is expired, handed out or left, in this order. -/
theorem popIdle_clients (now : Int) (idle : List (PooledConn κ)) :
    idle.map PooledConn.client =
      (popIdle now idle).expired ++ (popIdle now idle).reuse.toList ++
        (popIdle now idle).idle.map PooledConn.client := by
  induction idle with
  | nil => rfl
  | cons pc idle ih =>
      rw [popIdle]
      split
      · simp [ih]
      · simp

/-- Nothing stays in the list when no connection can be reused. -/
theorem popIdle_none {now : Int} {idle : List (PooledConn κ)}
    (h : (popIdle now idle).reuse = none) : (popIdle now idle).idle = [] := by
  induction idle with
  | nil => rfl
  | cons pc idle ih =>
      rw [popIdle] at h ⊢
      split
      · rename_i hexpired
        rw [if_pos hexpired] at h
        exact ih h
      · rename_i hfresh
        rw [if_neg hfresh] at h
        cases h

end TargetPool

/-- One borrow, as far as other threads and the network decide it: the pool in which the
waiting loop finds a free slot (`none` when the deadline passes first), the clock there, and
the outcome of connecting. -/
structure Borrowing where
  found : Option (TargetPool SocketServerClient)
  now : Int
  connect : Except PyErr Endpoint

/-- `TargetPool.acquire` of the pool for `host:port`. -/
def Borrowing.acquire (b : Borrowing) (host : String) (port socketTimeout : Int) :
    Except PyErr SocketServerClient :=
  match b.found with
  | none => .error ⟨.timeoutError, "靶机 " ++ host ++ " 连接池满,等待超时"⟩
  | some pool =>
    match (pool.takeSlot b.now).1.reuse with
    | some client => .ok { client with timeout := socketTimeout }
    | none =>
      match (SocketServerClient.connect b.connect).exec
          { host := host, port := port, timeout := socketTimeout } with
      | (.ok (), client) => .ok client
      | (.error e, _) => .error e

end McpSocketServer
