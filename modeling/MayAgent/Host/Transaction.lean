import MayAgent.Lib.Savepoints

/-!
# State transactions

`stateTransaction` and `afterStateCommit` (`lib/db/transaction.ts`). Store operations nest: an inner
one joins the commit of the outermost through a savepoint, and what is to be delivered after the
commit is kept in one array that every level shares.

A caller of these functions is a `Statement`: it writes, registers deliveries, throws, catches and
opens transactions, and may decide by what it reads. Running it also returns a `Trace` of what was
executed at which level, which the code does not keep.
-/

namespace MayAgent

/-- What a caller sees thrown. -/
inductive StateError where
  | error (message : String)
  | aggregate (errors : List String) (message : String)
  deriving DecidableEq

/-- A `deliver` function: what it leaves in the database and what it throws. -/
structure Callback (D : Type) where
  deliver : D → D × Option String

/-- A delivery that took place, with the data it found and whether a transaction was open. -/
structure Delivery (D : Type) where
  callback : Callback D
  found : D
  inStateTransaction : Bool

/-- The process: its database, the entry of the `active` map and the deliveries so far. -/
structure Session (D : Type) where
  db : Database D
  active : Option (List (Callback D))
  delivered : List (Delivery D)

/-- What SQLite or the operation of one `stateTransaction` call does beside the operation's own
statements: the opening statement fails, the operation returns a promise, the closing statement
fails. -/
structure Fault where
  opening : Option String := none
  thenable : Bool := false
  closing : Option String := none

inductive Statement (D : Type) where
  | skip
  | seq (first second : Statement D)
  | read (next : D → Statement D)
  | write (f : D → Except String D)
  | throw (message : String)
  | tryCatch (body handler : Statement D)
  | afterStateCommit (callback : Callback D)
  | stateTransaction (fault : Fault) (operation : Statement D)

/-- What a run executed: the writes and registrations in their order, under the levels they were
made at. -/
inductive Trace (D : Type) where
  | nothing
  | write (f : D → Except String D)
  | register (callback : Callback D)
  | append (first second : Trace D)
  | level (rolledBack : Bool) (operations : Trace D)

namespace Session

variable {D : Type}

/-- Calls a `deliver` function. -/
def deliver (st : Session D) (callback : Callback D) : Session D × Option String :=
  ({ st with
      db := st.db.setData (callback.deliver st.db.data).1
      delivered := st.delivered ++ [⟨callback, st.db.data, st.active.isSome || st.db.transaction.isSome⟩] },
    (callback.deliver st.db.data).2)

/-- The loop over the pending deliveries, with the errors it collects. -/
def deliverAll (st : Session D) : List (Callback D) → Session D × List String
  | [] => (st, [])
  | callback :: pending =>
    let first := st.deliver callback
    let rest := first.1.deliverAll pending
    (rest.1, first.2.toList ++ rest.2)

def STATE_OPERATION : String := "state_operation"

/-- Opens a level: a savepoint inside a transaction, a transaction otherwise. All levels share the
array of the outermost. -/
def openLevel (st : Session D) (fault : Fault) : Except String (Session D) :=
  match fault.opening with
  | some message => .error message
  | none =>
    (if st.active.isSome then .ok (st.db.savepoint STATE_OPERATION) else st.db.begin).map fun db =>
      { st with db := db, active := some (st.active.getD []) }

/-- The end of the try block: the result is no promise and the closing statement succeeds. -/
def closeLevel (st : Session D) (nested : Bool) (fault : Fault) : Except StateError (Session D) :=
  if fault.thenable then .error (.error "State transactions must be synchronous")
  else match fault.closing with
    | some message => .error (.error message)
    | none =>
      match if nested then st.db.release STATE_OPERATION else st.db.commit with
      | .error message => .error (.error message)
      | .ok db => .ok { st with db := db }

/-- The catch block and, for the outermost level, the finally block: the shared array shrinks to the
checkpoint, and an error of the rollback statements themselves is dropped. -/
def rollBack (st : Session D) (nested : Bool) (checkpoint : Nat) : Session D :=
  let db := if nested then (st.db.rollbackTo STATE_OPERATION).bind fun db => db.release STATE_OPERATION
    else st.db.rollback
  { st with
    db := db.toOption.getD st.db
    active := if nested then st.active.map (List.take checkpoint) else none }

end Session

namespace Statement

variable {D : Type}

/-- Runs a statement: the process after it, what it throws and what it executed. -/
def exec : Statement D → Session D → Session D × Except StateError Unit × Trace D
  | .skip, st => (st, .ok (), .nothing)
  | .seq first second, st =>
    match first.exec st with
    | (st, .error e, trace) => (st, .error e, trace)
    | (st, .ok _, trace) =>
      let rest := second.exec st
      (rest.1, rest.2.1, trace.append rest.2.2)
  | .read next, st => (next st.db.data).exec st
  | .write f, st =>
    match f st.db.data with
    | .error message => (st, .error (.error message), .nothing)
    | .ok data => ({ st with db := st.db.setData data }, .ok (), .write f)
  | .throw message, st => (st, .error (.error message), .nothing)
  | .tryCatch body handler, st =>
    match body.exec st with
    | (st, .ok _, trace) => (st, .ok (), trace)
    | (st, .error _, trace) =>
      let rest := handler.exec st
      (rest.1, rest.2.1, trace.append rest.2.2)
  | .afterStateCommit callback, st =>
    match st.active with
    | some pending => ({ st with active := some (pending ++ [callback]) }, .ok (), .register callback)
    | none =>
      match st.deliver callback with
      | (st, none) => (st, .ok (), .nothing)
      | (st, some message) => (st, .error (.error message), .nothing)
  | .stateTransaction fault operation, st =>
    match st.openLevel fault with
    | .error message => (st, .error (.error message), .level true .nothing)
    | .ok opened =>
      let ran := operation.exec opened
      match ran.2.1 >>= fun _ => ran.1.closeLevel st.active.isSome fault with
      | .error e => (ran.1.rollBack st.active.isSome (st.active.getD []).length, .error e, .level true ran.2.2)
      | .ok closed =>
        if st.active.isSome then (closed, .ok (), .level false ran.2.2)
        else
          let delivered := { closed with active := none }.deliverAll (closed.active.getD [])
          (delivered.1,
            if delivered.2.isEmpty then .ok ()
            else .error (.aggregate delivered.2 "State committed, but event delivery failed"),
            .level false ran.2.2)

end Statement

end MayAgent
