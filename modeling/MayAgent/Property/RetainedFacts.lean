import MayAgent.Property.Emission
import MayAgent.Property.Retention

/-!
# Facts under retention

The receipt of a published fact is its row, and retention deletes rows by age. None of the references it looks at is the
Task generation that published the fact, so the row of a generation that stays open goes after five days, and the fact is
appended again. Until then, or while something else obliges the row, the fact stays published.
-/

namespace MayAgent

open Retention

namespace Ledger

variable {db : Ledger} {now : Int} {batchSize : Nat} {refs : References} {pending : List Nat}

theorem Indexed.maintain (h : db.Indexed) (now : Int) (batchSize : Nat) (refs : References) (pending : List Nat) :
    (db.maintain now batchSize refs pending).Indexed := by
  refine ⟨List.pairwise_map.mpr (h.ids.imp fun {a b} hab => ?_), List.pairwise_map.mpr (h.keys.imp fun {a b} hab identity => ?_)⟩
  · split <;> split <;> exact hab
  · split
    · split
      · exact hab identity
      · exact fun _ hnone => (nomatch hnone)
    · exact fun hnone => (nomatch hnone)

theorem Trimmed.maintain (h : db.Trimmed) (now : Int) (batchSize : Nat) (refs : References) (pending : List Nat) :
    (db.maintain now batchSize refs pending).Trimmed := by
  intro row hrow key hkey
  obtain ⟨row₀, hrow₀, rfl⟩ := List.mem_map.mp hrow
  split at hkey
  · exact h row₀ hrow₀ key hkey
  · cases hkey

/-- The pass is not later than five days after the row, or something obliges it. -/
def Spared (db : Ledger) (now : Int) (refs : References) (pending : List Nat) (row : LedgerRow) : Prop :=
  now - 5 * dayMs ≤ row.timestamp ∨ (db.tables refs pending).Obliged now (row.stored pending)

/-- The passes spare the row `id`. -/
def Spares (id : Nat) (db : Ledger) : RetainedAction → Prop
  | .act _ => True
  | .maintain now _ refs pending => ∀ row ∈ db.rows, row.id = id → db.Spared now refs pending row

theorem mem_maintain {row : LedgerRow} (hrow : row ∈ db.rows) (hkeyed : row.idempotencyKey ≠ none)
    (hspared : db.Spared now refs pending row) (batchSize : Nat) : row ∈ (db.maintain now batchSize refs pending).rows := by
  have hpresent : row ≠ row.erased := by
    intro herased
    exact hkeyed (congrArg LedgerRow.idempotencyKey herased)
  have hstored : row.stored pending ∈ (db.tables refs pending).events :=
    List.mem_map_of_mem (List.mem_filter.mpr ⟨hrow, by simpa using hpresent⟩)
  have hkept : row.stored pending ∈ (runDbMaintenancePass now batchSize (db.tables refs pending)).events := by
    rcases hspared with hyoung | hobliged
    · exact Tables.young_pass hstored hyoung batchSize
    · exact (Tables.Holds.pass ⟨hstored, hobliged⟩ batchSize).1
  have hthere : (runDbMaintenancePass now batchSize (db.tables refs pending)).hasEvent row.id = true :=
    List.any_eq_true.mpr ⟨row.stored pending, hkept, beq_self_eq_true _⟩
  exact List.mem_map.mpr ⟨row, hrow, if_pos hthere⟩

/-- The journals that passes and other actions reach. -/
def Retains (ok : Ledger → RetainedAction → Prop) : Ledger → Ledger → Prop :=
  Relation.ReflTransGen (Takes Ledger.nextRetained ok)

theorem Retains.regular {ok : Ledger → RetainedAction → Prop} {db' : Ledger} (h : Retains ok db db')
    (hdb : db.Indexed ∧ db.Trimmed) : db'.Indexed ∧ db'.Trimmed := by
  induction h with
  | refl => exact hdb
  | tail _ hlast ih =>
    obtain ⟨action, -, rfl⟩ := hlast
    cases action with
    | act action => exact ⟨ih.1.next action, ih.2.next action⟩
    | maintain now batchSize refs pending =>
      exact ⟨ih.1.maintain now batchSize refs pending, ih.2.maintain now batchSize refs pending⟩

theorem Retains.mem {row : LedgerRow} {db' : Ledger} (h : Retains (Spares row.id) db db') (hrow : row ∈ db.rows)
    (hkeyed : row.idempotencyKey ≠ none) : row ∈ db'.rows := by
  induction h with
  | refl => exact hrow
  | @tail mid _ _ hlast ih =>
    obtain ⟨action, hok, rfl⟩ := hlast
    cases action with
    | act action =>
      rcases mid.next_rows action with hsame | ⟨p, _, -, hrows⟩
      · exact hsame ▸ ih
      · exact hrows ▸ List.mem_append_left _ ih
    | maintain _ batchSize => exact mem_maintain ih hkeyed (hok row ih rfl) batchSize

end Ledger

/-- The row of a fact stays as long as passes spare it. Publishing the fact again then returns the row and appends nothing,
from an attempt of the same agent or with an owner in the event, and for an answer to an escalation while it is for the
same Task. -/
theorem fact_retained {db₀ db₁ db : Ledger} {call : EmissionCall} {now₀ : Int} {projection₀ : Option String} {r : Nat}
    (hreach : Ledger.Retains (fun _ _ => True) Ledger.empty db₀) (howned : call.owned = true)
    (hfirst : call.emit db₀ now₀ projection₀ = .ok (db₁, ⟨r, false⟩)) (hlater : Ledger.Retains (Ledger.Spares r) db₁ db) :
    (∃ row ∈ db.rows, row.id = r ∧
      row.isEmission call.scope call.emitted.type (taskEmissionIdentity call.scope call.key) = true) ∧
    ∀ attemptId agent now projection, (call.emitted.owner = none → agent = call.claim.agent) →
      SameFeedback db₀ db (call.publication db₀).event →
      (call.byAttempt attemptId agent).emit db now projection = .ok (db, ⟨r, true⟩) := by
  have hempty : Ledger.empty.Indexed ∧ Ledger.empty.Trimmed :=
    ⟨⟨.nil, .nil⟩, fun row hrow => absurd hrow List.not_mem_nil⟩
  obtain ⟨hindexed, htrimmed⟩ := hreach.regular hempty
  obtain ⟨hkey, row, hmem₁, rfl, hrow, hhash⟩ := EmissionCall.row_later hindexed htrimmed howned hfirst .refl
  have hkeyed : row.idempotencyKey ≠ none := by
    rw [LedgerRow.key_of_isEmission hrow]
    exact Option.some_ne_none _
  have hmem : row ∈ db.rows := hlater.mem hmem₁ hkeyed
  have hindexed₁ : db₁.Indexed := hindexed.publish (EmissionCall.emit_ok hfirst).2
  have htrimmed₁ : db₁.Trimmed := by
    have hnext : db₁ = db₀.next (.publish (call.publication db₀) now₀ projection₀) := by
      simp only [Ledger.next, (EmissionCall.emit_ok hfirst).2]
    rw [hnext]
    exact htrimmed.next _
  have hdb : db.Indexed := (hlater.regular ⟨hindexed₁, htrimmed₁⟩).1
  refine ⟨⟨row, hmem, rfl, hrow⟩, fun attemptId agent now projection hagent hfeedback => ?_⟩
  have howned' := EmissionCall.owned_byAttempt howned attemptId agent
  have hkey' : (call.byAttempt attemptId agent).idempotencyKey db = taskEmissionIdentity call.scope call.key :=
    EmissionCall.idempotencyKey_later rfl rfl rfl hmem hrow
  have hsame : (((call.byAttempt attemptId agent).publication db).complete db).hash =
      ((call.publication db₀).complete db₀).hash := by
    unfold EmissionCall.publication at hfeedback ⊢
    rw [hkey] at hfeedback ⊢
    rw [hkey']
    exact (hash_emission_eq_iff howned howned').mpr ⟨hagent, hfeedback⟩
  have herror := (EmissionCall.emit_ok hfirst).1
  exact (EmissionCall.emit_found hdb howned' herror hmem hrow).trans (if_pos (hhash.trans (congrArg some hsame.symm)))

/-! ### A fact that is published twice -/

namespace Sample.RetainedFacts

open EmissionLog.Sample

def noReferences : References := ⟨[], [], [], [], [], []⟩

/-- Task `t` in its first generation, run by the attempt `attemptId` for another week. -/
def resumed (attemptId : String) : RetainedAction :=
  .act (.record [] [⟨"app", "t", 1, some attemptId, 1, .running, some (7 * dayMs), []⟩] ["app"])

def opened : Ledger := Ledger.empty.nextRetained (resumed "t1")

def receipt : Ledger := opened.next (.publish (call.publication opened) 0 none)

/-- A pass after a day, and one on the sixth day. -/
def spared : Ledger := receipt.nextRetained (.maintain dayMs 5000 noReferences [])

def swept : Ledger := receipt.nextRetained (.maintain (6 * dayMs) 5000 noReferences [])

def replaced : Ledger := swept.nextRetained (resumed "t2")

theorem emit_opened : call.emit opened 0 none = .ok (receipt, ⟨1, false⟩) := by rfl

theorem reaches_opened : Ledger.Retains (fun _ _ => True) Ledger.empty opened := .single ⟨resumed "t1", trivial, rfl⟩

end Sample.RetainedFacts

open Sample.RetainedFacts EmissionLog.Sample in
theorem fact_retained_spared :
    (call.byAttempt "t2" "a").emit spared dayMs none = .ok (spared, ⟨1, true⟩) := by
  have hspared : Ledger.Retains (Ledger.Spares 1) receipt spared := by
    refine .single ⟨.maintain dayMs 5000 noReferences [], fun row hrow _ => .inl ?_, rfl⟩
    have htime : ∀ row ∈ receipt.rows, dayMs - 5 * dayMs ≤ row.timestamp := by decide
    exact htime row hrow
  exact (fact_retained reaches_opened (by decide) emit_opened hspared).2 "t2" "a" dayMs none (fun _ => rfl)
    fun hfeedback => absurd hfeedback (by decide)

open Sample.RetainedFacts EmissionLog.Sample in
/-- The generation is still open, and its next attempt appends the fact a second time. -/
theorem fact_published_twice :
    call.emit opened 0 none = .ok (receipt, ⟨1, false⟩) ∧
      ownsEmission replaced (call.byAttempt "t2" "a").fence (6 * dayMs) = true ∧
      ∃ db, (call.byAttempt "t2" "a").emit replaced (6 * dayMs) none = .ok (db, ⟨2, false⟩) :=
  ⟨emit_opened, by rfl, _, rfl⟩

end MayAgent
