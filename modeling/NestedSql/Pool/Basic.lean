/-!
# Pools of permits

A pool lends a fixed number of permits. A client that finds none waits, and a permit that comes back
goes to the client that waits longest, who owns it from then on and holds it once it asks again. A
closed pool lends nothing: clients that still wait are refused when they ask again, and permits that
come back stay in the pool.
-/

namespace NestedSql

/-- The permits of a pool and the clients that have or want one, the longest waiting first. -/
structure Pool (Client : Type) where
  capacity : Nat
  available : Nat
  waiting : List Client
  granted : List Client
  held : List Client
  isOpen : Bool
deriving DecidableEq, Repr

/-- What a client does. -/
inductive PoolStep (Client : Type) where
  | acquire (client : Client)
  | poll (client : Client)
  | release (client : Client)
  | close
deriving DecidableEq, Repr

/-- What a client is told. -/
inductive PoolAnswer where
  | held
  | pending
  | refused
  | absent
  | released
  | cancelled
  | closed
deriving DecidableEq, Repr

namespace Pool

variable {Client : Type} [DecidableEq Client]

/-- A pool with all its permits; it has at least one. -/
def ofSize (size : Nat) : Pool Client := ⟨max size 1, max size 1, [], [], [], true⟩

/-- A permit comes back. -/
def giveBack (pool : Pool Client) : Pool Client :=
  match pool.isOpen, pool.waiting with
  | true, client :: waiting =>
    { pool with waiting := waiting, granted := pool.granted ++ [client] }
  | _, _ => { pool with available := pool.available + 1 }

/-- A client asks again. -/
def poll (pool : Pool Client) (client : Client) : Pool Client × PoolAnswer :=
  if client ∈ pool.held then (pool, .held)
  else if client ∈ pool.granted then
    let others := { pool with granted := pool.granted.erase client }
    if pool.isOpen then ({ others with held := pool.held ++ [client] }, .held)
    else (others.giveBack, .refused)
  else if client ∈ pool.waiting then
    if pool.isOpen then (pool, .pending)
    else ({ pool with waiting := pool.waiting.erase client }, .refused)
  else (pool, .absent)

/-- The pool knows the client. -/
def knows (pool : Pool Client) (client : Client) : Bool :=
  client ∈ pool.held ∨ client ∈ pool.granted ∨ client ∈ pool.waiting

/-- A client asks for the first time; one that is known already asks again. -/
def acquire (pool : Pool Client) (client : Client) : Pool Client × PoolAnswer :=
  if pool.knows client then pool.poll client
  else if !pool.isOpen then (pool, .refused)
  else if 0 < pool.available then
    ({ pool with available := pool.available - 1, held := pool.held ++ [client] }, .held)
  else ({ pool with waiting := pool.waiting ++ [client] }, .pending)

/-- A client leaves; a permit that it owns comes back. -/
def release (pool : Pool Client) (client : Client) : Pool Client × PoolAnswer :=
  if client ∈ pool.held then
    ({ pool with held := pool.held.erase client }.giveBack, .released)
  else if client ∈ pool.granted then
    ({ pool with granted := pool.granted.erase client }.giveBack, .cancelled)
  else if client ∈ pool.waiting then
    ({ pool with waiting := pool.waiting.erase client }, .cancelled)
  else (pool, .absent)

def close (pool : Pool Client) : Pool Client := { pool with isOpen := false }

/-- One step. -/
def step (pool : Pool Client) : PoolStep Client → Pool Client × PoolAnswer
  | .acquire client => pool.acquire client
  | .poll client => pool.poll client
  | .release client => pool.release client
  | .close => (pool.close, .closed)

/-- The pool after each step, with what the client was told. -/
def history (pool : Pool Client) : List (PoolStep Client) → List (Pool Client × PoolAnswer)
  | [] => []
  | step :: steps =>
    let (next, answer) := pool.step step
    (next, answer) :: history next steps

end Pool

end NestedSql
