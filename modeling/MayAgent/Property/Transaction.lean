import MayAgent.Host.Transaction
import MayAgent.Lib.Except

/-!
# Deliveries follow the committed work

Inside a transaction every statement keeps one invariant: the shared array is what it was, followed
by the registrations that no rolled back level undid, and the data is what it was, changed by the
writes of the same operations. The outermost call then delivers exactly that array.
-/

namespace MayAgent

variable {D : Type}

namespace Trace

def writes : Trace D → List (D → Except String D)
  | .nothing => []
  | .write f => [f]
  | .register _ => []
  | .append first second => first.writes ++ second.writes
  | .level rolledBack operations => if rolledBack then [] else operations.writes

/-- The registrations none of whose enclosing levels rolled back. -/
def callbacks : Trace D → List (Callback D)
  | .nothing => []
  | .write _ => []
  | .register callback => [callback]
  | .append first second => first.callbacks ++ second.callbacks
  | .level rolledBack operations => if rolledBack then [] else operations.callbacks

end Trace

def replay (writes : List (D → Except String D)) (data : D) : Except String D :=
  writes.foldlM (fun data f => f data) data

/-- What one statement inside a transaction does to the process. -/
structure Joined (st : Session D) (pending : List (Callback D)) (st' : Session D) (trace : Trace D) : Prop where
  active : st'.active = some (pending ++ trace.callbacks)
  delivered : st'.delivered = st.delivered
  data : ∃ data, replay trace.writes st.db.data = .ok data ∧ st'.db = st.db.setData data

namespace Joined

variable {st st' st'' : Session D} {pending : List (Callback D)} {trace trace' : Trace D}

theorem unchanged (hactive : st.active = some pending) : Joined st pending st .nothing where
  active := by simpa [Trace.callbacks] using hactive
  delivered := rfl
  data := ⟨st.db.data, rfl, rfl⟩

theorem append (h : Joined st pending st' trace)
    (h' : Joined st' (pending ++ trace.callbacks) st'' trace') : Joined st pending st'' (trace.append trace') where
  active := by rw [h'.active, List.append_assoc]; rfl
  delivered := h'.delivered.trans h.delivered
  data := by
    obtain ⟨data, hreplay, hdb⟩ := h.data
    obtain ⟨data', hreplay', hdb'⟩ := h'.data
    refine ⟨data', ?_, by rw [hdb', hdb, Database.setData_setData]⟩
    have hdata : st'.db.data = data := by rw [hdb]; rfl
    rw [hdata] at hreplay'
    simp only [replay, Trace.writes, List.foldlM_append] at hreplay hreplay' ⊢
    rw [hreplay]
    exact hreplay'

end Joined

namespace Session

variable {st : Session D} {pending : List (Callback D)} {fault : Fault}

theorem openLevel_nested {opened : Session D} (hactive : st.active = some pending)
    (hopen : st.openLevel fault = .ok opened) :
    opened = { st with db := st.db.savepoint STATE_OPERATION, active := some pending } := by
  unfold openLevel at hopen
  split at hopen
  · cases hopen
  · simp only [hactive, Option.isSome_some, if_true, Except.map, Option.getD_some] at hopen
    exact (Except.ok.inj hopen).symm

theorem closeLevel_nested {db : Database D} {data : D} {closed : Session D}
    (hdb : st.db = (db.savepoint STATE_OPERATION).setData data) (hclose : st.closeLevel true fault = .ok closed) :
    closed = { st with db := db.setData data } := by
  unfold closeLevel at hclose
  split at hclose
  · cases hclose
  · split at hclose
    · cases hclose
    · simp only [hdb, if_true, Database.release_savepoint] at hclose
      exact (Except.ok.inj hclose).symm

theorem rollBack_nested {db : Database D} {data : D} {later : List (Callback D)}
    (hdb : st.db = (db.savepoint STATE_OPERATION).setData data) (hactive : st.active = some (pending ++ later)) :
    st.rollBack true pending.length = { st with db := db, active := some pending } := by
  simp only [rollBack, hdb, hactive, if_true, Database.rollbackTo_savepoint, Except.bind,
    Database.release_savepoint_self, Option.map_some, List.take_left]
  rfl

end Session

theorem Statement.exec_joined (p : Statement D) {st : Session D} {pending : List (Callback D)}
    (hactive : st.active = some pending) : Joined st pending (p.exec st).1 (p.exec st).2.2 := by
  induction p generalizing st pending with
  | skip => exact .unchanged hactive
  | seq first _ ihFirst ihSecond =>
    have hfirst := ihFirst hactive
    simp only [Statement.exec]
    rcases hran : first.exec st with ⟨st', result, trace⟩
    rw [hran] at hfirst
    cases result with
    | error => exact hfirst
    | ok => exact hfirst.append (ihSecond hfirst.active)
  | read _ ih => exact ih st.db.data hactive
  | write f =>
    simp only [Statement.exec]
    cases hwrite : f st.db.data with
    | error => exact .unchanged hactive
    | ok data =>
      refine ⟨by simpa [Trace.callbacks] using hactive, rfl, data, ?_, rfl⟩
      simp [replay, Trace.writes, hwrite]
  | throw => exact .unchanged hactive
  | tryCatch body _ ihBody ihHandler =>
    have hbody := ihBody hactive
    simp only [Statement.exec]
    rcases hran : body.exec st with ⟨st', result, trace⟩
    rw [hran] at hbody
    cases result with
    | ok => exact hbody
    | error => exact hbody.append (ihHandler hbody.active)
  | afterStateCommit =>
    simp only [Statement.exec, hactive]
    exact ⟨rfl, rfl, st.db.data, rfl, rfl⟩
  | stateTransaction fault _ ih =>
    simp only [Statement.exec, hactive, Option.isSome_some, Option.getD_some]
    cases hopen : st.openLevel fault with
    | error => exact ⟨by simpa [Trace.callbacks] using hactive, rfl, st.db.data, rfl, rfl⟩
    | ok =>
      cases Session.openLevel_nested hactive hopen
      have hran := @ih { st with db := st.db.savepoint Session.STATE_OPERATION, active := some pending } pending rfl
      obtain ⟨data, hreplay, hdb⟩ := hran.data
      simp only
      split
      · rw [Session.rollBack_nested hdb hran.active]
        exact ⟨by simp [Trace.callbacks], hran.delivered, st.db.data, rfl, rfl⟩
      · rename_i closed hclose
        obtain ⟨_, -, hclosed⟩ := Checked.bind_eq_ok.mp hclose
        rw [if_pos trivial, Session.closeLevel_nested hdb hclosed]
        exact ⟨hran.active, hran.delivered, data, hreplay, rfl⟩

/-! ### The outermost level -/

structure Session.Idle (st : Session D) : Prop where
  db : st.db.Idle
  active : st.active = none

/-- The deliveries of a list of callbacks, each outside any transaction and each finding what the
earlier ones left. -/
def deliveries (data : D) : List (Callback D) → List (Delivery D)
  | [] => []
  | callback :: pending => ⟨callback, data, false⟩ :: deliveries (callback.deliver data).1 pending

def deliveryErrors (data : D) : List (Callback D) → List String
  | [] => []
  | callback :: pending => (callback.deliver data).2.toList ++ deliveryErrors (callback.deliver data).1 pending

theorem Session.deliverAll_idle {st : Session D} (hidle : st.Idle) (pending : List (Callback D)) :
    st.deliverAll pending =
      ({ st with
          db := st.db.setData (pending.foldl (fun data callback => (callback.deliver data).1) st.db.data)
          delivered := st.delivered ++ deliveries st.db.data pending },
        deliveryErrors st.db.data pending) := by
  induction pending generalizing st with
  | nil => simp [Session.deliverAll, deliveries, deliveryErrors]
  | cons callback _ ih =>
    have hnext : (st.deliver callback).1.Idle := ⟨⟨hidle.db.transaction, hidle.db.savepoints⟩, hidle.active⟩
    rw [Session.deliverAll, ih hnext]
    simp [Session.deliver, deliveries, deliveryErrors, hidle.active, hidle.db.transaction]

namespace Session

variable {st : Session D} {fault : Fault}

theorem openLevel_idle {opened : Session D} (hidle : st.Idle) (hopen : st.openLevel fault = .ok opened) :
    opened = { st with db := { st.db with transaction := some st.db.data }, active := some [] } := by
  unfold openLevel at hopen
  split at hopen
  · cases hopen
  · simp only [hidle.active, hidle.db.begin, Option.isSome_none, Bool.false_eq_true, if_false, Except.map,
      Option.getD_none] at hopen
    exact (Except.ok.inj hopen).symm

theorem closeLevel_idle {db : Database D} {data : D} {closed : Session D} (hidle : db.Idle)
    (hdb : st.db = { db with transaction := some db.data }.setData data)
    (hclose : st.closeLevel false fault = .ok closed) : closed = { st with db := db.setData data } := by
  unfold closeLevel at hclose
  split at hclose
  · cases hclose
  · split at hclose
    · cases hclose
    · simp only [hdb, Bool.false_eq_true, if_false, hidle.commit] at hclose
      exact (Except.ok.inj hclose).symm

theorem rollBack_idle {db : Database D} {data : D} (hidle : db.Idle)
    (hdb : st.db = { db with transaction := some db.data }.setData data) (checkpoint : Nat) :
    st.rollBack false checkpoint = { st with db := db, active := none } := by
  simp only [rollBack, hdb, Bool.false_eq_true, if_false, hidle.rollback]
  rfl

end Session

/-- An outermost call: what is delivered and what stays written belongs to exactly the operations
none of whose enclosing levels rolled back. The callbacks are delivered once, in the order of their
registration, after the commit and outside any transaction, whichever of them fail. -/
theorem callbacks_follow_commit (fault : Fault) (operation : Statement D) {st : Session D} (hidle : st.Idle) :
    ∃ st' result rolledBack operations committed,
      (Statement.stateTransaction fault operation).exec st = (st', result, .level rolledBack operations) ∧ st'.Idle ∧
      (rolledBack = true → (∃ e, result = .error e) ∧ st'.db.data = st.db.data ∧ st'.delivered = st.delivered) ∧
      (rolledBack = false →
        replay operations.writes st.db.data = .ok committed ∧
        st'.delivered = st.delivered ++ deliveries committed operations.callbacks ∧
        st'.db.data = operations.callbacks.foldl (fun data callback => (callback.deliver data).1) committed ∧
        result = if (deliveryErrors committed operations.callbacks).isEmpty then .ok ()
          else .error (.aggregate (deliveryErrors committed operations.callbacks)
            "State committed, but event delivery failed")) := by
  simp only [Statement.exec, hidle.active, Option.isSome_none, Option.getD_none, List.length_nil]
  cases hopen : st.openLevel fault with
  | error =>
    exact ⟨st, _, true, .nothing, st.db.data, rfl, hidle, fun _ => ⟨⟨_, rfl⟩, rfl, rfl⟩, fun h => nomatch h⟩
  | ok =>
    cases Session.openLevel_idle hidle hopen
    have hran := @Statement.exec_joined D operation
      { st with db := { st.db with transaction := some st.db.data }, active := some [] } [] rfl
    obtain ⟨data, hreplay, hdb⟩ := hran.data
    simp only
    split
    · rw [Session.rollBack_idle hidle.db hdb]
      exact ⟨_, _, true, _, st.db.data, rfl, ⟨hidle.db, rfl⟩, fun _ => ⟨⟨_, rfl⟩, rfl, hran.delivered⟩,
        fun h => nomatch h⟩
    · rename_i closed hclose
      obtain ⟨_, -, hclosed⟩ := Checked.bind_eq_ok.mp hclose
      rw [Session.closeLevel_idle hidle.db hdb hclosed, if_neg (by decide), Session.deliverAll_idle ?_]
      refine ⟨_, _, false, _, data, rfl, ⟨⟨hidle.db.transaction, hidle.db.savepoints⟩, rfl⟩, (fun h => nomatch h), ?_⟩
      · intro _
        simp only [hran.active, hran.delivered]
        exact ⟨hreplay, rfl, rfl, rfl⟩
      · exact ⟨⟨hidle.db.transaction, hidle.db.savepoints⟩, rfl⟩

namespace Sample

/-- A callback that appends a number and may fail. -/
def note (n : Nat) (failure : Option String) : Callback (List Nat) := ⟨fun data => (data ++ [n], failure)⟩

def insert (n : Nat) : Statement (List Nat) := .write fun data => .ok (data ++ [n])

def nestedOperation : Statement (List Nat) :=
  .seq (.seq (insert 1) (.afterStateCommit (note 10 (some "fixture delivery failure"))))
    (.seq
      (.tryCatch (.stateTransaction {} (.seq (.seq (insert 2) (.afterStateCommit (note 20 none))) (.throw "fixture")))
        .skip)
      (.stateTransaction {} (.seq (insert 3) (.afterStateCommit (note 30 none)))))

def emptySession : Session (List Nat) := ⟨⟨[], none, []⟩, none, []⟩

end Sample

open Sample in
/-- The first callback fails; the writes 1 and 3 and the second callback's note stay. -/
theorem callbacks_follow_commit_nested :
    ((Statement.stateTransaction {} nestedOperation).exec emptySession).1.db.data = [1, 3, 10, 30] ∧
      ∃ st' result rolledBack operations,
        (Statement.stateTransaction {} nestedOperation).exec emptySession = (st', result, .level rolledBack operations) ∧
          st'.Idle := by
  obtain ⟨st', result, rolledBack, operations, _, hexec, hidle, -⟩ :=
    @callbacks_follow_commit (List Nat) {} nestedOperation emptySession ⟨⟨rfl, rfl⟩, rfl⟩
  exact ⟨by decide, st', result, rolledBack, operations, hexec, hidle⟩

end MayAgent
