/-!
# Lending of connections

A client that owns a permit takes an idle connection, the one that came back last, or opens a new
one if none is idle; opening can fail, which gives the permit back. A connection goes back to the
idle ones before its permit does. Each of these is a step of its own, so that the steps of clients
interleave.
-/

namespace NestedSql

/-- Where a client stands between a permit and the end of its loan. -/
inductive LoanStage where
  | permitted
  | opening
  | holding (connection : Nat)
  | returned
deriving DecidableEq, Repr

/-- The permits that are free, the idle connections, the one that came back last first, the clients
with a loan, and the number of the next connection to be opened. -/
structure Lending (Client : Type) where
  permits : Nat
  idle : List Nat
  loans : List (Client × LoanStage)
  opened : Nat
deriving DecidableEq, Repr

/-- What a client does next. -/
inductive LendingStep (Client : Type) where
  | permit (client : Client)
  | take (client : Client)
  | connect (client : Client)
  | fail (client : Client)
  | putBack (client : Client)
  | finish (client : Client)
deriving DecidableEq, Repr

namespace Lending

variable {Client : Type} [DecidableEq Client]

/-- No loans yet; there is one permit at least. -/
def ofSize (size : Nat) : Lending Client := ⟨max size 1, [], [], 0⟩

def stage? (lending : Lending Client) (client : Client) : Option LoanStage :=
  lending.loans.lookup client

/-- The client goes on to a stage. -/
def move (lending : Lending Client) (client : Client) (stage : LoanStage) : Lending Client :=
  { lending with
    loans := lending.loans.map fun loan => if loan.1 = client then (client, stage) else loan }

/-- The loan of a client ends, and its permit is free. -/
def endLoan (lending : Lending Client) (client : Client) : Lending Client :=
  { lending with
    permits := lending.permits + 1
    loans := lending.loans.filter fun loan => loan.1 ≠ client }

/-- One step; nothing if the client is not at the stage for it. -/
def step? (lending : Lending Client) (step : LendingStep Client) : Option (Lending Client) :=
  match step with
  | .permit client =>
    if 0 < lending.permits ∧ lending.stage? client = none then
      some { lending with
        permits := lending.permits - 1, loans := (client, .permitted) :: lending.loans }
    else none
  | .take client =>
    match lending.stage? client, lending.idle with
    | some .permitted, connection :: idle =>
      some ({ lending with idle := idle }.move client (.holding connection))
    | some .permitted, [] => some (lending.move client .opening)
    | _, _ => none
  | .connect client =>
    match lending.stage? client with
    | some .opening =>
      some ({ lending with opened := lending.opened + 1 }.move client (.holding lending.opened))
    | _ => none
  | .fail client =>
    match lending.stage? client with
    | some .opening => some (lending.endLoan client)
    | _ => none
  | .putBack client =>
    match lending.stage? client with
    | some (.holding connection) =>
      some ({ lending with idle := connection :: lending.idle }.move client .returned)
    | _ => none
  | .finish client =>
    match lending.stage? client with
    | some .returned => some (lending.endLoan client)
    | _ => none

/-- The lending after some steps, all of which have to be possible. -/
def after? (lending : Lending Client) (steps : List (LendingStep Client)) :
    Option (Lending Client) :=
  steps.foldlM step? lending

/-- The connection that a loan is about. -/
def LoanStage.connection? : LoanStage → Option Nat
  | .holding connection => some connection
  | _ => none

/-- The connections that clients hold. -/
def lent (lending : Lending Client) : List Nat :=
  lending.loans.filterMap fun loan => LoanStage.connection? loan.2

/-- The clients that are to open a connection. -/
def openings (lending : Lending Client) : Nat :=
  lending.loans.countP fun loan => loan.2 = .opening

/-- The connections that are idle, lent, or about to be opened. -/
def alive (lending : Lending Client) : Nat :=
  lending.idle.length + lending.lent.length + lending.openings

end Lending

end NestedSql
