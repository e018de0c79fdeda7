import MayAgent.Host.Metrics

/-!
# Episodes of metrics

An alert is opened where its metric has no other open one, under the next id and together with its `metric.breach`. The
only `metric.recovered` of an alert is published in the step that closes it, and a closed alert is never opened again.

What an evaluation decides is computed from the samples in the order of their times. Where no two of them have the same
time, the order of their arrival, which only their ids show, makes no difference.

A recovery is announced wherever an alert is open and no breach is found. With a rule that asks for several samples in a
row, no breach is found as soon as one of these samples is healthy, whatever the current value is.
-/

namespace MayAgent

namespace Metrics

/-! ### What an operation does to alerts -/

section Changes

variable {db db' : MetricDb}

/-- An update of alerts that renames none and opens none again. -/
structure Keeps (f : Alert → Alert) : Prop where
  id : ∀ a, (f a).id = a.id
  metricId : ∀ a, (f a).metricId = a.metricId
  closed : ∀ a, (f a).resolvedAt = none → a.resolvedAt = none

variable {f : Alert → Alert} {alert : Alert} {P : MetricDb → Prop}

theorem Keeps.ite (hf : Keeps f) (p : Alert → Bool) : Keeps fun a => if p a then f a else a where
  id a := by split <;> simp [hf.id]
  metricId a := by split <;> simp [hf.metricId]
  closed a h := by
    split at h
    · exact hf.closed a h
    · exact h

theorem Keeps.resolve (ts : ℚ) : Keeps fun a => { a with resolvedAt := some ts } where
  id _ := rfl
  metricId _ := rfl
  closed _ h := nomatch h

theorem Keeps.refl : Keeps fun a => a := ⟨fun _ => rfl, fun _ => rfl, fun _ h => h⟩

inductive AlertChange (db db' : MetricDb) : Prop where
  | updated (f : Alert → Alert) (hf : Keeps f) (halerts : db'.alerts = db.alerts.map f) (hevents : db'.events = db.events)
  | opened (alert : Alert) (event : MetricEvent)
      (hfree : ∀ a ∈ db.alerts, a.metricId = alert.metricId → a.resolvedAt ≠ none)
      (hid : alert.id = db.nextAlertId) (htype : event.type = .breach) (hevent : event.alertId = alert.id)
      (halerts : db'.alerts = db.alerts ++ [alert]) (hevents : db'.events = db.events ++ [event])
  | recovered (alert : Alert) (event : MetricEvent) (ts : ℚ) (hmem : alert ∈ db.alerts) (hopen : alert.resolvedAt = none)
      (htype : event.type = .recovered) (hevent : event.alertId = alert.id)
      (halerts : db'.alerts = (db.resolve alert.id ts).alerts) (hevents : db'.events = db.events ++ [event])

theorem AlertChange.refl (db : MetricDb) : AlertChange db db := .updated _ Keeps.refl (by simp) rfl

theorem AlertChange.of_update {p : Alert → Bool} (hf : Keeps f) (halerts : db'.alerts = db.alerts)
    (hevents : db'.events = db.events) : AlertChange db (db'.updateAlerts p f) :=
  .updated _ (hf.ite p) (by simp [MetricDb.updateAlerts, halerts]) hevents

variable {id : String} {ts : ℚ}

theorem openAlert_eq_some (h : db.openAlert id = some alert) :
    alert ∈ db.alerts ∧ alert.metricId = id ∧ alert.resolvedAt = none := by
  refine ⟨List.mem_of_find?_eq_some h, ?_⟩
  simpa using List.find?_some h

theorem openAlert_eq_none (h : db.openAlert id = none) (hmem : alert ∈ db.alerts)
    (hid : alert.metricId = id) : alert.resolvedAt ≠ none := by
  intro hopen
  have hnot := List.find?_eq_none.mp h alert hmem
  simp [hid, hopen] at hnot

theorem alertChange_resolve (alertId : ℕ) (ts : ℚ) : AlertChange db (db.resolve alertId ts) :=
  .of_update (Keeps.resolve ts) rfl rfl

theorem alertChange_retype (alertId : ℕ) (alertType : String) (message : AlertMessage) :
    AlertChange db (db.retype alertId alertType message) :=
  .of_update ⟨fun _ => rfl, fun _ => rfl, fun _ h => h⟩ rfl rfl

theorem alertChange_define {d : Definition} (h : db.define d ts = .ok db') : AlertChange db db' := by
  rw [MetricDb.define] at h
  split at h
  · cases h
  · split at h
    · cases h
    · dsimp only at h
      split at h <;> cases h
      · exact .of_update (Keeps.resolve ts) rfl rfl
      · exact .updated _ Keeps.refl (by simp) rfl

theorem alertChange_settle (m : Metric) (ts : ℚ) (assessment : Assessment) :
    AlertChange db (db.settle m ts (db.openAlert m.id) assessment).1 := by
  cases hfound : db.openAlert m.id with
  | none =>
    cases assessment with
    | disabled => exact .refl db
    | unknown => exact .refl db
    | breached =>
      exact .opened _ _ (fun a ha hid => openAlert_eq_none hfound ha hid) rfl rfl rfl rfl rfl
    | healthy => exact .refl db
  | some alert =>
    cases assessment with
    | disabled => exact alertChange_resolve alert.id ts
    | unknown => exact .refl db
    | breached _ alertType message =>
      rw [MetricDb.settle]
      dsimp only
      split
      · exact alertChange_retype alert.id alertType message
      · exact .refl db
    | healthy =>
      obtain ⟨hmem, -, hopen⟩ := openAlert_eq_some hfound
      exact .recovered alert _ ts hmem hopen rfl rfl rfl rfl

/-- The row of a metric carries the id it is found under. -/
def Named (db : MetricDb) : Prop := ∀ id m, db.metrics.get id = some m → m.id = id

theorem evaluated_eq_some {m : Metric} {threshold : ℚ} (h : db.evaluated id = some (m, threshold)) :
    db.metrics.get id = some m := by
  rw [MetricDb.evaluated, Option.bind_eq_some_iff] at h
  obtain ⟨_, hget, h⟩ := h
  split at h
  · obtain ⟨_, -, heq⟩ := Option.map_eq_some_iff.mp h
    cases heq
    exact hget
  · cases h

@[elab_as_elim]
theorem evaluate_rule (h : (db.evaluate id ts).map Prod.fst = .ok db') (hdb : P db)
    (hsettle : ∀ m threshold assessment, db.evaluated id = some (m, threshold) →
      assess m threshold (db.samples id ts) ts = .ok assessment → P (db.settle m ts (db.openAlert id) assessment).1) :
    P db' := by
  rw [MetricDb.evaluate] at h
  split at h
  case h_1 =>
    cases h
    exact hdb
  case h_2 m threshold hm =>
    split at h
    case h_1 => cases h
    case h_2 assessment hassess =>
      cases h
      exact hsettle m threshold assessment hm hassess

theorem alertChange_alert {manual : MetricDb.ManualAlert} (h : db.alert id manual ts = .ok db') :
    AlertChange db db' := by
  rw [MetricDb.alert] at h
  split at h
  case h_1 => cases h
  case h_2 m _ =>
    dsimp only at h
    split at h <;> cases h
    case h_1 => exact alertChange_retype _ _ _
    case h_2 hnone => exact .opened _ _ (fun a ha hid => openAlert_eq_none hnone ha hid) rfl rfl rfl rfl rfl

theorem alertChange_resolveAlert (alertId : ℕ) (ts : ℚ) : AlertChange db (db.resolveAlert alertId ts) :=
  .of_update ⟨fun _ => rfl, fun _ => rfl, fun _ h => nomatch h⟩ rfl rfl

theorem committed_rule {published : Bool} {result : Except String MetricDb} (hdb : P db)
    (h : ∀ next, result = .ok next → P next) : P (committed db published result) := by
  cases result with
  | error => exact hdb
  | ok next =>
    rw [committed]
    split
    · exact h next rfl
    · exact hdb

theorem alertChange_next (hnamed : Named db) (a : Action) : AlertChange db (db.next a) := by
  cases a with
  | define => exact committed_rule (.refl db) fun next h => alertChange_define h
  | record => exact .updated _ Keeps.refl (by simp [MetricDb.next, MetricDb.record]) rfl
  | evaluate id ts =>
    refine committed_rule (.refl db) fun next h => evaluate_rule h (.refl db) fun m _ assessment hm _ => ?_
    obtain rfl := hnamed id m (evaluated_eq_some hm)
    exact alertChange_settle m ts assessment
  | alert => exact committed_rule (.refl db) fun next h => alertChange_alert h
  | resolveAlert alertId ts => exact alertChange_resolveAlert alertId ts

end Changes

/-! ### Episodes -/

section Episodes

variable {db db' : MetricDb}

def announced (events : List MetricEvent) (type : EventType) : List ℕ :=
  (events.filter fun e => e.type = type).map MetricEvent.alertId

theorem announced_append (events : List MetricEvent) (e : MetricEvent) (type : EventType) :
    announced (events ++ [e]) type = announced events type ++ if e.type = type then [e.alertId] else [] := by
  rw [announced, List.filter_append, List.map_append, announced]
  by_cases h : e.type = type <;> simp [h]

theorem mem_announced {events : List MetricEvent} {type : EventType} {id : ℕ} :
    id ∈ announced events type ↔ ∃ e ∈ events, e.type = type ∧ e.alertId = id := by
  simp [announced, and_assoc]

theorem length_filter_events (events : List MetricEvent) (type : EventType) (id : ℕ) :
    (events.filter fun e => e.type = type ∧ e.alertId = id).length = (announced events type).count id := by
  rw [announced, List.count, List.countP_map, List.countP_filter, ← List.countP_eq_length_filter]
  refine List.countP_congr fun e _ => ?_
  simp [and_comm]

structure Episodic (db : MetricDb) : Prop where
  numbered : db.alerts.map Alert.id = List.range' 1 db.alerts.length
  single : ∀ a ∈ db.alerts, ∀ b ∈ db.alerts, a.metricId = b.metricId → a.resolvedAt = none → b.resolvedAt = none →
    a.id = b.id
  breached : announced db.events .breach = db.alerts.map Alert.id
  once : (announced db.events .recovered).Nodup
  closed : ∀ id ∈ announced db.events .recovered, ∃ a ∈ db.alerts, a.id = id ∧ a.resolvedAt ≠ none
  ordered : db.events.Pairwise fun e e' => e.type = .recovered → e'.type = .breach → e.alertId ≠ e'.alertId

theorem Episodic.nodup (h : Episodic db) : (db.alerts.map Alert.id).Nodup := by
  rw [h.numbered]
  exact List.nodup_range'

variable {a : Alert} {ts : ℚ} {id : String}

theorem Episodic.id_le (h : Episodic db) (ha : a ∈ db.alerts) : a.id < db.nextAlertId := by
  have hmem : a.id ∈ db.alerts.map Alert.id := List.mem_map_of_mem ha
  rw [h.numbered, List.mem_range'_1] at hmem
  rw [MetricDb.nextAlertId]
  omega

theorem Episodic.eq_of_id (h : Episodic db) {b : Alert} (ha : a ∈ db.alerts) (hb : b ∈ db.alerts) (hid : a.id = b.id) :
    a = b :=
  List.inj_on_of_nodup_map h.nodup ha hb hid

variable {f : Alert → Alert} {alert : Alert} {event : MetricEvent} {α : Type*}

theorem Episodic.updated (h : Episodic db) (hf : Keeps f) (halerts : db'.alerts = db.alerts.map f)
    (hevents : db'.events = db.events) : Episodic db' := by
  have hids : db'.alerts.map Alert.id = db.alerts.map Alert.id := by
    rw [halerts, List.map_map]
    exact List.map_congr_left fun a _ => hf.id a
  refine ⟨?_, ?_, by rw [hevents, hids, h.breached], hevents ▸ h.once, ?_, hevents ▸ h.ordered⟩
  · rw [hids, h.numbered, halerts, List.length_map]
  · rw [halerts]
    intro a' ha' b' hb' hmetric hopen hopen'
    obtain ⟨a, ha, rfl⟩ := List.mem_map.mp ha'
    obtain ⟨b, hb, rfl⟩ := List.mem_map.mp hb'
    rw [hf.metricId, hf.metricId] at hmetric
    rw [hf.id, hf.id]
    exact h.single a ha b hb hmetric (hf.closed a hopen) (hf.closed b hopen')
  · intro id hid
    rw [hevents] at hid
    obtain ⟨a, ha, hid, hclosed⟩ := h.closed id hid
    exact ⟨f a, halerts ▸ List.mem_map_of_mem ha, (hf.id a).trans hid, fun hopen => hclosed (hf.closed a hopen)⟩

theorem Episodic.opened (h : Episodic db)
    (hfree : ∀ a ∈ db.alerts, a.metricId = alert.metricId → a.resolvedAt ≠ none) (hid : alert.id = db.nextAlertId)
    (htype : event.type = .breach) (hevent : event.alertId = alert.id) (halerts : db'.alerts = db.alerts ++ [alert])
    (hevents : db'.events = db.events ++ [event]) : Episodic db' := by
  have hrecovered : announced db'.events .recovered = announced db.events .recovered := by
    rw [hevents, announced_append, htype, if_neg (by decide), List.append_nil]
  refine ⟨?_, ?_, ?_, hrecovered ▸ h.once, ?_, ?_⟩
  · rw [halerts, List.map_append, h.numbered, List.length_append, List.map_singleton, hid, List.length_singleton,
      List.range'_concat, MetricDb.nextAlertId]
    rw [Nat.one_mul, Nat.add_comm 1]
  · rw [halerts]
    intro a ha b hb hmetric hopen hopen'
    rw [List.mem_append, List.mem_singleton] at ha hb
    obtain ha | rfl := ha <;> obtain hb | rfl := hb
    · exact h.single a ha b hb hmetric hopen hopen'
    · exact absurd hopen (hfree a ha hmetric)
    · exact absurd hopen' (hfree b hb hmetric.symm)
    · rfl
  · rw [hevents, halerts, announced_append, htype, if_pos rfl, List.map_append, h.breached, hevent]
    rfl
  · rw [hrecovered, halerts]
    intro id hmem
    obtain ⟨a, ha, hprops⟩ := h.closed id hmem
    exact ⟨a, List.mem_append_left _ ha, hprops⟩
  · rw [hevents, List.pairwise_append]
    refine ⟨h.ordered, List.pairwise_singleton _ _, fun e he e' he' hr _ heq => ?_⟩
    -- A recovered alert is an old one, and the new id is none of theirs.
    obtain rfl := List.mem_singleton.mp he'
    obtain ⟨a, ha, _, -⟩ := h.closed e.alertId (mem_announced.mpr ⟨e, he, hr, rfl⟩)
    have hlt := h.id_le ha
    omega

theorem Episodic.recovered (h : Episodic db) (hmem : alert ∈ db.alerts)
    (hopen : alert.resolvedAt = none) (htype : event.type = .recovered) (hevent : event.alertId = alert.id)
    (halerts : db'.alerts = (db.resolve alert.id ts).alerts) (hevents : db'.events = db.events ++ [event]) :
    Episodic db' := by
  have hresolved : Episodic (db.resolve alert.id ts) := h.updated ((Keeps.resolve ts).ite _) rfl rfl
  refine ⟨halerts ▸ hresolved.numbered, halerts ▸ hresolved.single, ?_, ?_, ?_, ?_⟩
  · rw [hevents, halerts, announced_append, htype, if_neg (by decide), List.append_nil]
    exact hresolved.breached
  · rw [hevents, announced_append, htype, if_pos rfl, hevent]
    refine List.Nodup.append h.once (List.nodup_singleton _) ?_
    -- An alert that is open has not recovered yet.
    rw [List.disjoint_singleton]
    intro hid
    obtain ⟨a, ha, hid, hclosed⟩ := h.closed _ hid
    exact hclosed (h.eq_of_id ha hmem hid ▸ hopen)
  · rw [hevents, halerts, announced_append, htype, if_pos rfl, hevent]
    intro id hid
    rw [List.mem_append, List.mem_singleton] at hid
    obtain hid | rfl := hid
    · exact hresolved.closed id hid
    · refine ⟨{ alert with resolvedAt := some ts }, ?_, rfl, nofun⟩
      refine List.mem_map.mpr ⟨alert, hmem, ?_⟩
      simp
  · rw [hevents, List.pairwise_append]
    refine ⟨h.ordered, List.pairwise_singleton _ _, fun e _ e' he' _ hb => ?_⟩
    obtain rfl := List.mem_singleton.mp he'
    rw [htype] at hb
    cases hb

theorem Episodic.change (h : Episodic db) (hchange : AlertChange db db') : Episodic db' := by
  cases hchange with
  | updated f hf halerts hevents => exact h.updated hf halerts hevents
  | opened _ _ hfree hid htype hevent halerts hevents =>
    exact h.opened hfree hid htype hevent halerts hevents
  | recovered _ _ _ hmem hopen htype hevent halerts hevents =>
    exact h.recovered hmem hopen htype hevent halerts hevents

theorem find?_of_unique {p : α → Bool} {l : List α} {a : α} (ha : a ∈ l) (hp : p a = true)
    (h : ∀ b ∈ l, p b = true → b = a) : l.find? p = some a := by
  cases hfind : l.find? p with
  | none => exact absurd hp (List.find?_eq_none.mp hfind a ha)
  | some b => rw [h b (List.mem_of_find?_eq_some hfind) (List.find?_some hfind)]

theorem Episodic.row_eq (h : Episodic db) (ha : a ∈ db.alerts) :
    db.alerts.find? (fun b => b.id = a.id) = some a :=
  find?_of_unique ha (by simp) fun b hb hid => h.eq_of_id hb ha (by simpa using hid)

theorem Episodic.openAlert_eq (h : Episodic db) (ha : a ∈ db.alerts) (hopen : a.resolvedAt = none) :
    db.openAlert a.metricId = some a := by
  refine find?_of_unique ha (by simp [hopen]) fun b hb hb' => ?_
  obtain ⟨hmetric, hopen'⟩ : b.metricId = a.metricId ∧ b.resolvedAt = none := by simpa using hb'
  exact h.eq_of_id hb ha (h.single b hb a ha hmetric hopen' hopen)

/-- The row of an alert after an update of it. -/
theorem Episodic.row_update (h : Episodic db) (ha : a ∈ db.alerts) (hf : Keeps f) :
    f a ∈ (db.updateAlerts (fun b => b.id = a.id) f).alerts ∧
      (db.updateAlerts (fun b => b.id = a.id) f).alerts.find? (fun b => b.id = a.id) = some (f a) := by
  have hmem : f a ∈ (db.updateAlerts (fun b => b.id = a.id) f).alerts := List.mem_map.mpr ⟨a, ha, by simp⟩
  have hupdated : Episodic (db.updateAlerts (fun b => b.id = a.id) f) := h.updated (hf.ite _) rfl rfl
  have hrow := hupdated.row_eq hmem
  rw [hf.id] at hrow
  exact ⟨hmem, hrow⟩

theorem Episodic.openAlert_resolve (h : Episodic db) (hopen : db.openAlert id = some a) (ts : ℚ) :
    (db.resolve a.id ts).openAlert id = none := by
  cases hfind : (db.resolve a.id ts).openAlert id with
  | none => rfl
  | some b =>
    obtain ⟨hb, hmetric, hopen'⟩ := openAlert_eq_some hfind
    obtain ⟨b, hmem, rfl⟩ := List.mem_map.mp hb
    by_cases hid : b.id = a.id
    · simp [hid] at hopen'
    · simp only [hid, decide_false, Bool.false_eq_true, if_false] at hmetric hopen'
      have hfound := h.openAlert_eq hmem hopen'
      rw [hmetric, hopen, Option.some.injEq] at hfound
      exact absurd (congrArg Alert.id hfound.symm) hid

theorem settle_metrics (m : Metric) (ts : ℚ) (openAlert : Option Alert) (assessment : Assessment) :
    (db.settle m ts openAlert assessment).1.metrics = db.metrics := by
  cases assessment <;> cases openAlert <;> simp only [MetricDb.settle] <;> try rfl
  split <;> rfl

theorem define_metrics {d : Definition} (h : db.define d ts = .ok db') :
    db'.metrics = db.metrics.put d.id (toDbDefinition d) := by
  rw [MetricDb.define] at h
  split at h
  · cases h
  · split at h
    · cases h
    · dsimp only at h
      split at h <;> cases h <;> rfl

theorem alert_metrics {manual : MetricDb.ManualAlert} (h : db.alert id manual ts = .ok db') :
    db'.metrics = db.metrics := by
  rw [MetricDb.alert] at h
  split at h
  · cases h
  · dsimp only at h
    split at h <;> cases h <;> rfl

theorem Named.next (h : Named db) (a : Action) : Named (db.next a) := by
  cases a with
  | define =>
    refine committed_rule h fun db' hdefine id m hm => ?_
    rw [define_metrics hdefine, Table.get_put] at hm
    split at hm
    case isTrue hid =>
      cases hm
      exact hid.symm
    case isFalse => exact h id m hm
  | record => exact h
  | evaluate =>
    refine committed_rule h fun db' hr => evaluate_rule hr h fun m _ assessment _ _ => ?_
    rw [Named, settle_metrics]
    exact h
  | alert =>
    refine committed_rule h fun db' halert => ?_
    rw [Named, alert_metrics halert]
    exact h
  | resolveAlert => exact h

theorem reachable_episodic (h : db.Reachable) : Named db ∧ Episodic db := by
  refine Reaches.invariant (I := fun db => Named db ∧ Episodic db) ?_ ?_ h
  · rintro _ rfl
    refine ⟨fun id m hm => ?_, rfl, nofun, rfl, List.nodup_nil, nofun, List.Pairwise.nil⟩
    rw [MetricDb.empty, Table.get_empty] at hm
    cases hm
  · rintro db a ⟨hnamed, hepisodic⟩ -
    exact ⟨hnamed.next a, hepisodic.change (alertChange_next hnamed a)⟩

structure Bracketed (db : MetricDb) : Prop where
  distinct : (db.alerts.map Alert.id).Nodup
  oneOpen : ∀ id, (db.alerts.filter fun a => a.metricId = id ∧ a.resolvedAt = none).length ≤ 1
  oneBreach : ∀ a ∈ db.alerts, (db.events.filter fun e => e.type = .breach ∧ e.alertId = a.id).length = 1
  oneRecovery : ∀ a ∈ db.alerts, (db.events.filter fun e => e.type = .recovered ∧ e.alertId = a.id).length ≤ 1
  breachFirst : ∀ before e after, db.events = before ++ e :: after → e.type = .recovered →
    ∃ b ∈ before, b.type = .breach ∧ b.alertId = e.alertId

theorem length_le_one {l : List α} (hnodup : l.Nodup) (h : ∀ a ∈ l, ∀ b ∈ l, a = b) : l.length ≤ 1 := by
  match l with
  | [] => exact Nat.zero_le 1
  | [_] => exact le_refl 1
  | a :: b :: l =>
    have heq : a = b := h a (by simp) b (by simp)
    simp [heq] at hnodup

theorem Episodic.bracketed (h : Episodic db) : Bracketed db where
  distinct := h.nodup
  oneOpen id := by
    refine length_le_one (h.nodup.of_map.filter _) fun a ha b hb => ?_
    simp only [List.mem_filter, decide_eq_true_eq] at ha hb
    exact h.eq_of_id ha.1 hb.1 (h.single a ha.1 b hb.1 (ha.2.1.trans hb.2.1.symm) ha.2.2 hb.2.2)
  oneBreach a ha := by
    rw [length_filter_events, h.breached]
    exact List.count_eq_one_of_mem h.nodup (List.mem_map_of_mem ha)
  oneRecovery a _ := by
    rw [length_filter_events]
    exact List.nodup_iff_count_le_one.mp h.once a.id
  breachFirst before e after hsplit hr := by
    have hmem : e ∈ db.events := by simp [hsplit]
    obtain ⟨a, ha, hid, -⟩ := h.closed e.alertId (mem_announced.mpr ⟨e, hmem, hr, rfl⟩)
    have hbreach : e.alertId ∈ announced db.events .breach := by
      rw [h.breached, ← hid]
      exact List.mem_map_of_mem ha
    obtain ⟨b, hb, htype, hb'⟩ := mem_announced.mp hbreach
    rw [hsplit, List.mem_append, List.mem_cons] at hb
    obtain hb | rfl | hb := hb
    · exact ⟨b, hb, htype, hb'⟩
    · rw [hr] at htype
      cases htype
    · have hordered := h.ordered
      rw [hsplit, List.pairwise_append, List.pairwise_cons] at hordered
      exact absurd hb'.symm (hordered.2.1.1 b hb hr htype)

end Episodes

/-! ### The order of arrival -/

section Arrival

/-- A sample without what shows its arrival. -/
def Snapshot.reading (s : Snapshot) : Snapshot := { s with id := 0, metricId := "" }

def Later (a b : Snapshot) : Prop := b.measuredAt < a.measuredAt

instance : Std.Irrefl Later := ⟨fun _ h => lt_irrefl _ h⟩

instance : Std.Antisymm Later := ⟨fun _ _ h h' => absurd h (lt_asymm h')⟩

instance : IsTrans Snapshot Newer := ⟨fun a b c hab hbc => by
  obtain hab | ⟨hab, hid⟩ := hab <;> obtain hbc | ⟨hbc, hid'⟩ := hbc
  · exact .inl (hbc.trans hab)
  · exact .inl (hbc ▸ hab)
  · exact .inl (hab ▸ hbc)
  · exact .inr ⟨hbc.trans hab, hid'.trans hid⟩⟩

instance : Std.Total Newer := ⟨fun a b => by
  obtain h | h | h := lt_trichotomy a.measuredAt b.measuredAt
  · exact .inr (.inl h)
  · obtain hid | hid := Nat.le_total a.id b.id
    · exact .inr (.inr ⟨h, hid⟩)
    · exact .inl (.inr ⟨h.symm, hid⟩)
  · exact .inl (.inl h)⟩

variable {options : CalculationOptions} {samples : List Snapshot} {ts : ℚ}

theorem inWindow_reading (samples : List Snapshot) (ts : ℚ) (window : ℕ) :
    inWindow (samples.map Snapshot.reading) ts window = (inWindow samples ts window).map Snapshot.reading := by
  rw [inWindow, List.filter_map]
  rfl

theorem map_value_reading (samples : List Snapshot) :
    (samples.map Snapshot.reading).map Snapshot.value = samples.map Snapshot.value := by
  rw [List.map_map]
  rfl

theorem calculateMetric_reading (interval : Option ℚ) :
    calculateMetric options interval (samples.map Snapshot.reading) ts = calculateMetric options interval samples ts := by
  cases samples with
  | nil => rfl
  | cons latest rest =>
    have hwindow (window : ℕ) : inWindow (latest.reading :: rest.map Snapshot.reading) ts window =
        (inWindow (latest :: rest) ts window).map Snapshot.reading := inWindow_reading (latest :: rest) ts window
    simp only [List.map_cons, calculateMetric, hwindow, List.length_map, List.map_eq_nil_iff, map_value_reading]
    rfl

theorem assessConsecutive_reading (m : Metric) (threshold : ℚ) (calculation : Calculation) :
    assessConsecutive m threshold calculation (samples.map Snapshot.reading) =
      assessConsecutive m threshold calculation samples := by
  rw [assessConsecutive, assessConsecutive]
  simp only [← List.map_take, List.length_map, List.all_map]
  rfl

theorem rateSamples_reading (maxAge : Option ℚ) :
    rateSamples (samples.map Snapshot.reading) maxAge ts = (rateSamples samples maxAge ts).map Snapshot.reading := by
  cases maxAge with
  | none => exact List.map_take.symm
  | some =>
    rw [rateSamples, rateSamples, List.filter_map, ← List.map_take]
    rfl

theorem ratePer_reading (alert : AlertConfig) : ratePer alert (samples.map Snapshot.reading) = ratePer alert samples := by
  match samples with
  | [] => rfl
  | [_] => rfl
  | [_, _] => rfl
  | _ :: _ :: _ :: _ => rfl

theorem firstUnchanged_reading (hlater : samples.Pairwise Later) (latest : Snapshot) :
    firstUnchanged (samples.map Snapshot.reading) latest.reading =
      (firstUnchanged samples latest).map Snapshot.reading := by
  have hfind : (samples.map Snapshot.reading).find? (fun s => s.value ≠ latest.reading.value) =
      (samples.find? fun s => s.value ≠ latest.value).map Snapshot.reading := List.find?_map
  rw [firstUnchanged, firstUnchanged, hfind]
  cases hchanged : samples.find? fun s => s.value ≠ latest.value with
  | none => exact List.getLast?_map
  | some changed =>
    have hmem : changed ∈ samples := List.mem_of_find?_eq_some hchanged
    simp only [Option.map_some]
    rw [List.filter_map, List.getLast?_map]
    congr 2
    refine List.filter_congr fun s hs => ?_
    -- Only the sample itself has its time, and its id is not below itself.
    have hnodup : (samples.map Snapshot.measuredAt).Nodup := List.pairwise_map.mpr (hlater.imp fun h => h.ne')
    have hsame (htime : changed.measuredAt = s.measuredAt) : changed = s :=
      List.inj_on_of_nodup_map hnodup hmem hs htime
    simp only [Function.comp_apply, Snapshot.reading, lt_irrefl, and_false, or_false, decide_eq_decide]
    refine ⟨.inl, fun h => h.resolve_right fun ⟨htime, hid⟩ => ?_⟩
    rw [hsame htime] at hid
    exact lt_irrefl _ hid

theorem stallDetected_reading (hlater : samples.Pairwise Later) (alert : AlertConfig) :
    stallDetected alert (samples.map Snapshot.reading) ts = stallDetected alert samples ts := by
  rw [stallDetected, stallDetected, List.head?_map]
  cases samples.head? with
  | none => rfl
  | some latest =>
    cases alert.stallAfterMs.filter (· ≠ 0) with
    | none => rfl
    | some =>
      simp only [Option.map_some, firstUnchanged_reading hlater latest, Option.any_map]
      rfl

theorem assess_reading (hlater : samples.Pairwise Later) (m : Metric) (threshold : ℚ) :
    assess m threshold (samples.map Snapshot.reading) ts = assess m threshold samples ts := by
  simp only [assess, calculateMetric_reading, assessConsecutive_reading, assessRate, rateSamples_reading, ratePer_reading,
    stallDetected_reading hlater]

variable {db db' : MetricDb} {id : String}

def Sampled (db : MetricDb) (id : String) (ts value measuredAt : ℚ) : Prop :=
  ∃ s ∈ db.snapshots, s.metricId = id ∧ s.value = value ∧ s.measuredAt = measuredAt ∧ s.measuredAt ≤ ts

def Timed (db : MetricDb) (id : String) (ts : ℚ) : Prop :=
  ((db.snapshots.filter fun s => s.metricId = id ∧ s.measuredAt ≤ ts).map Snapshot.measuredAt).Nodup

theorem Timed.later (h : Timed db id ts) : (db.samples id ts).Pairwise Later := by
  have hsorted : (db.samples id ts).Pairwise Newer := List.pairwise_insertionSort _ _
  have hnodup : ((db.samples id ts).map Snapshot.measuredAt).Nodup :=
    ((List.perm_insertionSort Newer _).map Snapshot.measuredAt).nodup_iff.mpr h
  have hne := List.pairwise_map.mp hnodup
  refine (hsorted.and hne).imp fun {a b} hab => ?_
  obtain ⟨hlt | ⟨heq, -⟩, hne⟩ := hab
  · exact hlt
  · exact absurd heq.symm hne

theorem mem_readings {s : Snapshot} : s ∈ (db.samples id ts).map Snapshot.reading ↔
    s = s.reading ∧ Sampled db id ts s.value s.measuredAt := by
  rw [List.mem_map]
  constructor
  · rintro ⟨s, hs, rfl⟩
    rw [MetricDb.samples, newestFirst, List.mem_insertionSort, List.mem_filter, decide_eq_true_eq] at hs
    exact ⟨rfl, s, hs.1, hs.2.1, rfl, rfl, hs.2.2⟩
  · rintro ⟨heq, s', hs', hid, hvalue, htime, hle⟩
    refine ⟨s', ?_, ?_⟩
    · rw [MetricDb.samples, newestFirst, List.mem_insertionSort, List.mem_filter, decide_eq_true_eq]
      exact ⟨hs', hid, hle⟩
    · rw [heq, Snapshot.reading, Snapshot.reading, hvalue, htime]

theorem readings_eq (h : Timed db id ts) (h' : Timed db' id ts)
    (hsame : ∀ value measuredAt, Sampled db id ts value measuredAt ↔ Sampled db' id ts value measuredAt) :
    (db.samples id ts).map Snapshot.reading = (db'.samples id ts).map Snapshot.reading := by
  refine List.Pairwise.eq_of_mem_iff (r := Later) ?_ ?_ fun s => ?_
  · exact List.pairwise_map.mpr h.later
  · exact List.pairwise_map.mpr h'.later
  · rw [mem_readings, mem_readings, hsame]

theorem assess_samples_eq (h : Timed db id ts) (h' : Timed db' id ts)
    (hsame : ∀ value measuredAt, Sampled db id ts value measuredAt ↔ Sampled db' id ts value measuredAt) (m : Metric)
    (threshold : ℚ) : assess m threshold (db.samples id ts) ts = assess m threshold (db'.samples id ts) ts := by
  rw [← assess_reading h.later, readings_eq h h' hsame, assess_reading h'.later]

/-- What is decided: the result, the open alert of the metric afterwards, what became of the row that was open, and the
events. The id that a new alert gets is left out, and so is the trend, which shows later samples. -/
structure Decision where
  result : Option MetricDb.Evaluation
  openAlert : Option Alert
  row : Option Alert
  published : List MetricEvent

def decision (db : MetricDb) (id : String) (r : MetricDb × Option MetricDb.Evaluation) : Decision :=
  let known := (db.openAlert id).isSome
  { result := r.2.map fun e => { e with alertId := if known then e.alertId else none }
    openAlert := (r.1.openAlert id).map fun a => { a with id := if known then a.id else 0 }
    row := (db.openAlert id).bind fun before => r.1.alerts.find? fun a => a.id = before.id
    published := (r.1.events.drop db.events.length).map fun e =>
      { e with alertId := if known then e.alertId else 0, trend := [] } }

/-- What an assessment decides, given the alert that is open. -/
def decided (m : Metric) (ts : ℚ) : Option Alert → Assessment → Decision
  | none, .breached calculation alertType message =>
    ⟨some { status := .breached, message := some message, calculation := some calculation },
      some ⟨0, m.id, alertType, message, none, ts⟩, none,
      [⟨.breach, m.id, 0, some alertType, calculation.value, some calculation, m.threshold, m.target, m.alertOp, ts, [],
        some message, m.priority⟩]⟩
  | none, .disabled => ⟨some { status := .ok }, none, none, []⟩
  | none, .healthy calculation => ⟨some { status := .ok, calculation := some calculation }, none, none, []⟩
  | alert, .unknown calculation note =>
    ⟨some { status := .unknown, note := note, calculation := some calculation }, alert, alert, []⟩
  | some alert, .disabled => ⟨some { status := .ok }, none, some { alert with resolvedAt := some ts }, []⟩
  | some alert, .breached calculation alertType message =>
    ⟨some { status := .breached, alertId := some alert.id, message := some message, calculation := some calculation },
      some { alert with alertType := alertType, message := message },
      some { alert with alertType := alertType, message := message }, []⟩
  | some alert, .healthy calculation =>
    ⟨some { status := .recovered, alertId := some alert.id, calculation := some calculation }, none,
      some { alert with resolvedAt := some ts },
      [⟨.recovered, m.id, alert.id, none, calculation.value, some calculation, m.threshold, m.target, m.alertOp, ts, [],
        none, m.priority⟩]⟩

variable {alert : Alert} {result : Option MetricDb.Evaluation} {after : Option Alert} {events : List MetricEvent}

theorem decision_known (hknown : db.openAlert id = some alert)
    {row : Option Alert} (hopen : db'.openAlert id = after)
    (hrow : db'.alerts.find? (fun a => a.id = alert.id) = row) (hevents : db'.events = db.events ++ events) :
    decision db id (db', result) = ⟨result, after, row, events.map fun e => { e with trend := [] }⟩ := by
  simp [decision, hknown, hopen, hrow, hevents]

theorem decision_unknown (hunknown : db.openAlert id = none)
    (hopen : db'.openAlert id = after) (hevents : db'.events = db.events ++ events) :
    decision db id (db', result) = ⟨result.map fun e => { e with alertId := none },
      after.map fun a => { a with id := 0 }, none, events.map fun e => { e with alertId := 0, trend := [] }⟩ := by
  simp [decision, hunknown, hopen, hevents]

theorem openAlert_insertAlert (hopen : db.openAlert id = none) (hmetric : alert.metricId = id)
    (hnew : alert.resolvedAt = none) (event : MetricEvent) : (db.insertAlert alert event).openAlert id = some alert := by
  have hnone : db.alerts.find? (fun a => a.metricId = id ∧ a.resolvedAt = none) = none := hopen
  rw [MetricDb.openAlert, MetricDb.insertAlert, List.find?_append, hnone]
  simp [hmetric, hnew]

theorem decision_settle (h : Episodic db) (m : Metric) (assessment : Assessment) :
    decision db m.id
        ((db.settle m ts (db.openAlert m.id) assessment).1, some (db.settle m ts (db.openAlert m.id) assessment).2) =
      decided m ts (db.openAlert m.id) assessment := by
  cases hopen : db.openAlert m.id with
  | none =>
    cases assessment with
    | breached =>
      exact decision_unknown hopen (openAlert_insertAlert hopen rfl rfl _) rfl
    | _ => exact decision_unknown hopen hopen (List.append_nil _).symm
  | some alert =>
    obtain ⟨hmem, hmetric, hresolved⟩ := openAlert_eq_some hopen
    have hclosed := h.openAlert_resolve hopen ts
    have hrow := (h.row_update hmem (Keeps.resolve ts)).2
    cases assessment with
    | unknown => exact decision_known hopen hopen (h.row_eq hmem) (List.append_nil _).symm
    | disabled => exact decision_known hopen hclosed hrow (List.append_nil _).symm
    | healthy calculation =>
      have hclosed' : (db.settle m ts (some alert) (.healthy calculation)).1.openAlert m.id = none := hclosed
      exact decision_known hopen hclosed' hrow rfl
    | breached _ alertType message =>
      have hkeeps : Keeps fun a => { a with alertType := alertType, message := message } :=
        ⟨fun _ => rfl, fun _ => rfl, fun _ h => h⟩
      obtain ⟨hmem', hrow'⟩ := h.row_update hmem hkeeps
      have hretyped : Episodic (db.retype alert.id alertType message) := h.updated (hkeeps.ite _) rfl rfl
      have hopen' : (db.retype alert.id alertType message).openAlert m.id =
          some { alert with alertType := alertType, message := message } :=
        hmetric ▸ hretyped.openAlert_eq hmem' hresolved
      rw [MetricDb.settle]
      dsimp only
      split
      · exact decision_known hopen hopen' hrow' (List.append_nil _).symm
      case isFalse hsame =>
        obtain ⟨rfl, rfl⟩ : alert.alertType = alertType ∧ alert.message = message := by simpa using hsame
        exact decision_known hopen hopen (h.row_eq hmem) (List.append_nil _).symm

theorem decision_eq (hdb : db.Reachable) (hdb' : db'.Reachable) (hmetric : db.metrics.get id = db'.metrics.get id)
    (hopen : db.openAlert id = db'.openAlert id) (h : Timed db id ts) (h' : Timed db' id ts)
    (hsame : ∀ value measuredAt, Sampled db id ts value measuredAt ↔ Sampled db' id ts value measuredAt) :
    (db.evaluate id ts).map (decision db id) = (db'.evaluate id ts).map (decision db' id) := by
  obtain ⟨hnamed, hepisodic⟩ := reachable_episodic hdb
  have hepisodic' := (reachable_episodic hdb').2
  have hevaluated : db.evaluated id = db'.evaluated id := by rw [MetricDb.evaluated, MetricDb.evaluated, hmetric]
  rw [MetricDb.evaluate, MetricDb.evaluate, ← hevaluated]
  cases hrow : db.evaluated id with
  | none =>
    have hkept : ∀ {db : MetricDb}, Episodic db → decision db id (db, none) =
        ⟨none, db.openAlert id, db.openAlert id, []⟩ := by
      intro db h
      cases hfound : db.openAlert id with
      | none => simp [decision, hfound]
      | some => simp [decision, hfound, h.row_eq (openAlert_eq_some hfound).1]
    simp only [Except.map, hkept hepisodic, hkept hepisodic', hopen]
  | some row =>
    obtain ⟨m, threshold⟩ := row
    obtain rfl : m.id = id := hnamed id m (evaluated_eq_some hrow)
    dsimp only
    rw [← assess_samples_eq h h' hsame]
    cases assess m threshold (db.samples m.id ts) ts with
    | error => rfl
    | ok =>
      simp only [Except.map]
      rw [decision_settle hepisodic, decision_settle hepisodic', hopen]

/-- Alerts and events are well bracketed in every run. What an evaluation decides depends on the definition, the open
alert and the samples with their times. -/
theorem episodes_bracketed :
    (∀ db : MetricDb, db.Reachable → Bracketed db) ∧
      ∀ db db' : MetricDb, db.Reachable → db'.Reachable → ∀ id ts, db.metrics.get id = db'.metrics.get id →
        db.openAlert id = db'.openAlert id → Timed db id ts → Timed db' id ts →
        (∀ value measuredAt, Sampled db id ts value measuredAt ↔ Sampled db' id ts value measuredAt) →
        (db.evaluate id ts).map (decision db id) = (db'.evaluate id ts).map (decision db' id) :=
  ⟨fun _ hdb => (reachable_episodic hdb).2.bracketed,
    fun _ _ hdb hdb' _ _ hmetric hopen h h' hsame => decision_eq hdb hdb' hmetric hopen h h' hsame⟩

namespace Sample.Builds

def definition : Definition :=
  { id := "builds", type := some "health", threshold := some 1
    config := { alert := { mode := some "consecutive_failures" } } }

def run (actions : List Action) : MetricDb := (Action.define definition 0 :: actions).foldl MetricDb.next .empty

def failed : MetricDb :=
  run [.record "builds" 0 10, .record "builds" 0 20, .record "builds" 0 30, .evaluate "builds" 30 true]

def shuffled : MetricDb :=
  run [.record "builds" 0 30, .record "builds" 0 10, .record "builds" 0 20, .evaluate "builds" 30 true]

theorem run_reachable (actions : List Action) : (run actions).Reachable := by
  have hempty : MetricDb.empty.Reachable := Reaches.start rfl
  exact hempty.foldl (fun _ _ => trivial) _

theorem failed_snapshots :
    failed.snapshots = [⟨1, "builds", 0, 10⟩, ⟨2, "builds", 0, 20⟩, ⟨3, "builds", 0, 30⟩] := by decide +kernel

theorem shuffled_snapshots :
    shuffled.snapshots = [⟨1, "builds", 0, 30⟩, ⟨2, "builds", 0, 10⟩, ⟨3, "builds", 0, 20⟩] := by decide +kernel

theorem failed_timed : Timed failed "builds" 40 := by
  rw [Timed, failed_snapshots]
  decide +kernel

theorem shuffled_timed : Timed shuffled "builds" 40 := by
  rw [Timed, shuffled_snapshots]
  decide +kernel

theorem same_samples (value measuredAt : ℚ) :
    Sampled failed "builds" 40 value measuredAt ↔ Sampled shuffled "builds" 40 value measuredAt := by
  rw [Sampled, Sampled, failed_snapshots, shuffled_snapshots]
  simp only [List.mem_cons, List.not_mem_nil, or_false, exists_eq_or_imp, exists_eq_left]
  tauto

end Sample.Builds

open Sample.Builds in
theorem episodes_bracketed_builds :
    Bracketed failed ∧
      (failed.evaluate "builds" 40).map (decision failed "builds") =
        (shuffled.evaluate "builds" 40).map (decision shuffled "builds") :=
  ⟨episodes_bracketed.1 failed (run_reachable _),
    episodes_bracketed.2 failed shuffled (run_reachable _) (run_reachable _) "builds" 40 (by decide +kernel)
      (by decide +kernel) failed_timed shuffled_timed
      same_samples⟩

end Arrival

/-! ### Recovery -/

section Recovery

variable {db : MetricDb} {id : String} {ts : ℚ} {m : Metric} {threshold : ℚ} {options : CalculationOptions}
  {samples : List Snapshot}

/-- An evaluation publishes `metric.recovered`. -/
def Recovers (db : MetricDb) (id : String) (ts : ℚ) : Prop :=
  ∃ db' result event, db.evaluate id ts = .ok (db', result) ∧ db'.events = db.events ++ [event] ∧ event.type = .recovered

def Breaching (db : MetricDb) (id : String) (ts : ℚ) : Prop :=
  ∃ m threshold options, db.evaluated id = some (m, threshold) ∧ metricCalculationOptions m.config = .ok options ∧
    m.valueBreaches threshold (calculateMetric options m.measureInterval (db.samples id ts) ts)

structure InBreach (m : Metric) (threshold : ℚ) (options : CalculationOptions) (samples : List Snapshot) (ts : ℚ) :
    Prop where
  fresh : ∀ s ∈ samples.head?, ∀ maxAge ∈ metricMaxAgeMs options m.measureInterval, ts - s.measuredAt ≤ maxAge
  latest : options.method = .latest → ∃ s ∈ samples.head?, metricThresholdBreached s.value threshold m.alertOp
  mean : options.method = .mean →
    let window := inWindow samples ts (options.windowMs.getD 0)
    window ≠ [] ∧ options.minSamples.getD 2 ≤ window.length ∧
      metricThresholdBreached ((window.map Snapshot.value).sum / window.length) threshold m.alertOp

theorem valueBreaches_iff : m.valueBreaches threshold (calculateMetric options m.measureInterval samples ts) = true ↔
    InBreach m threshold options samples ts := by
  cases samples with
  | nil =>
    refine ⟨nofun, fun h => ?_⟩
    cases hmethod : options.method with
    | latest =>
      obtain ⟨s, hs, -⟩ := h.latest hmethod
      cases hs
    | mean => exact absurd rfl (h.mean hmethod).1
  | cons latest rest =>
    by_cases hstale : (metricMaxAgeMs options m.measureInterval).any fun maxAge => maxAge < ts - latest.measuredAt
    · simp only [calculateMetric, if_pos hstale]
      refine ⟨nofun, fun h => ?_⟩
      obtain ⟨maxAge, hmax, hlt⟩ := (Option.any_eq_true _ _).mp hstale
      exact absurd (h.fresh latest rfl maxAge hmax) (not_le.mpr (of_decide_eq_true hlt))
    · have hfresh : ∀ s ∈ (latest :: rest).head?, ∀ maxAge ∈ metricMaxAgeMs options m.measureInterval,
          ts - s.measuredAt ≤ maxAge := by
        rintro s ⟨⟩ maxAge hmax
        by_contra hlt
        exact hstale ((Option.any_eq_true _ _).mpr ⟨maxAge, hmax, decide_eq_true (not_le.mp hlt)⟩)
      cases hmethod : options.method with
      | latest =>
        simp only [calculateMetric, if_neg hstale, hmethod]
        refine ⟨fun h => ⟨hfresh, fun _ => ⟨latest, rfl, h⟩, fun hmean => by cases hmethod.symm.trans hmean⟩, fun h => ?_⟩
        obtain ⟨s, hs, hbreach⟩ := h.latest hmethod
        cases hs
        exact hbreach
      | mean =>
        simp only [calculateMetric, if_neg hstale, hmethod]
        split
        case isTrue hfew =>
          exact ⟨nofun, fun h => absurd (h.mean hmethod).2.1 (not_le.mpr hfew)⟩
        case isFalse hmany =>
          split
          case isTrue hnil => exact ⟨nofun, fun h => absurd hnil (h.mean hmethod).1⟩
          case isFalse hsome =>
            refine ⟨fun h => ⟨hfresh, fun hlatest => ?_, fun _ => ⟨hsome, not_lt.mp hmany, h⟩⟩, fun h => (h.mean hmethod).2.2⟩
            cases hmethod.symm.trans hlatest

/-- An alert is open, its rule asks for a run of samples, and there are as many; the value is in breach, but a sample of
the run is not. -/
structure Interrupted (db : MetricDb) (id : String) (ts : ℚ) (m : Metric) (threshold : ℚ) (options : CalculationOptions) :
    Prop where
  evaluated : db.evaluated id = some (m, threshold)
  calculated : metricCalculationOptions m.config = .ok options
  enabled : m.config.alert.off = false
  consecutive : m.consecutive = true
  alert : (db.openAlert id).isSome
  breach : InBreach m threshold options (db.samples id ts) ts
  enough : m.config.alert.requiredCount ≤ (db.samples id ts).length
  healthy : ∃ s ∈ (db.samples id ts).take m.config.alert.requiredCount,
    metricThresholdBreached s.value threshold m.alertOp = false

variable {calculation calculation' : Calculation}

theorem unbreached_healthy (h : unbreached calculation = .healthy calculation') :
    calculation' = calculation := by
  rw [unbreached] at h
  split at h <;> cases h
  rfl

theorem unbreached_of_breaches (h : m.valueBreaches threshold calculation = true) :
    unbreached calculation = .healthy calculation := by
  rw [Metric.valueBreaches, Option.any_eq_true] at h
  obtain ⟨_, hvalue, -⟩ := h
  rw [unbreached, hvalue]

/-- A run of samples that is long enough and has a healthy one. -/
def Broken (m : Metric) (threshold : ℚ) (samples : List Snapshot) : Prop :=
  m.config.alert.requiredCount ≤ samples.length ∧
    ∃ s ∈ samples.take m.config.alert.requiredCount, metricThresholdBreached s.value threshold m.alertOp = false

theorem assessConsecutive_healthy
    (h : assessConsecutive m threshold calculation samples = .healthy calculation') :
    calculation' = calculation ∧ (m.valueBreaches threshold calculation = true → Broken m threshold samples) := by
  rw [assessConsecutive] at h
  split at h
  case isTrue => cases h
  case isFalse hmany =>
    split at h
    case isTrue => cases h
    case isFalse hsome =>
      refine ⟨unbreached_healthy h, fun hbreach => ⟨?_, ?_⟩⟩
      · rw [hbreach, Bool.true_and, decide_eq_true_eq, List.length_take] at hmany
        omega
      · simpa [hbreach] using hsome

theorem assessConsecutive_broken (hbreach : m.valueBreaches threshold calculation = true)
    (h : Broken m threshold samples) : assessConsecutive m threshold calculation samples = .healthy calculation := by
  obtain ⟨_, s, hs, hhealthy⟩ := h
  have hall : (samples.take m.config.alert.requiredCount).all
      (fun s => metricThresholdBreached s.value threshold m.alertOp) = false :=
    List.all_eq_false.mpr ⟨s, hs, by simp [hhealthy]⟩
  have hlength : ¬ (samples.take m.config.alert.requiredCount).length < m.config.alert.requiredCount := by
    rw [List.length_take]
    omega
  rw [assessConsecutive]
  rw [hall, decide_eq_false hlength, Bool.and_false, if_neg Bool.false_ne_true, if_neg Bool.false_ne_true]
  exact unbreached_of_breaches hbreach

theorem assessRate_healthy {maxAge : Option ℚ}
    (h : assessRate m threshold calculation maxAge samples ts = .healthy calculation') :
    calculation' = calculation ∧ m.valueBreaches threshold calculation = false := by
  rw [assessRate] at h
  generalize (if calculation.value.isSome then ratePer m.config.alert (rateSamples samples maxAge ts) else none) = rate
    at h
  split at h
  case isTrue => cases h
  case isFalse =>
    split at h
    case isTrue => cases h
    case isFalse hvalue =>
      refine ⟨?_, Bool.eq_false_iff.mpr hvalue⟩
      split at h
      case h_1 => cases h
      case h_2 =>
        split at h
        case isTrue => cases h
        case isFalse => exact unbreached_healthy h

theorem assess_healthy (h : assess m threshold samples ts = .ok (.healthy calculation)) :
    m.config.alert.off = false ∧ ∃ options, metricCalculationOptions m.config = .ok options ∧
      calculation = calculateMetric options m.measureInterval samples ts ∧
      (m.valueBreaches threshold calculation = true → m.consecutive = true ∧ Broken m threshold samples) := by
  rw [assess] at h
  split at h
  case isTrue => cases h
  case isFalse hoff =>
    refine ⟨Bool.eq_false_iff.mpr hoff, ?_⟩
    split at h
    case h_1 => cases h
    case h_2 options hoptions =>
      refine ⟨options, hoptions, ?_⟩
      dsimp only at h
      split at h
      case isTrue hconsecutive =>
        injection h with h
        obtain ⟨rfl, hbroken⟩ := assessConsecutive_healthy h
        exact ⟨rfl, fun hbreach => ⟨hconsecutive, hbroken hbreach⟩⟩
      case isFalse =>
        split at h
        case isTrue =>
          injection h with h
          obtain ⟨rfl, hvalue⟩ := assessRate_healthy h
          exact ⟨rfl, fun hbreach => absurd hbreach (by rw [hvalue]; decide)⟩
        case isFalse =>
          split at h
          case isTrue => cases h
          case isFalse hvalue =>
            injection h with h
            obtain rfl := unbreached_healthy h
            exact ⟨rfl, fun hbreach => absurd hbreach hvalue⟩

theorem recovers_iff : Recovers db id ts ↔
    ∃ m threshold calculation, db.evaluated id = some (m, threshold) ∧ (db.openAlert id).isSome ∧
      assess m threshold (db.samples id ts) ts = .ok (.healthy calculation) := by
  constructor
  · rintro ⟨db', _, _, hevaluate, hevents, htype⟩
    have hfst : (db.evaluate id ts).map Prod.fst = .ok db' := by rw [hevaluate]; rfl
    revert hevents
    refine evaluate_rule hfst (by simp) fun m threshold assessment hm hassess hevents => ?_
    refine ⟨m, threshold, ?_⟩
    cases hopen : db.openAlert id with
    | none =>
      rw [hopen] at hevents
      cases assessment with
      | breached =>
        obtain rfl := List.singleton_inj.mp (List.append_cancel_left hevents)
        cases htype
      | _ => simp [MetricDb.settle] at hevents
    | some =>
      rw [hopen] at hevents
      cases assessment with
      | healthy calculation => exact ⟨calculation, hm, rfl, hassess⟩
      | breached =>
        rw [MetricDb.settle] at hevents
        dsimp only at hevents
        split at hevents <;> simp [MetricDb.retype, MetricDb.updateAlerts] at hevents
      | _ => simp [MetricDb.settle, MetricDb.resolve, MetricDb.updateAlerts] at hevents
  · rintro ⟨m, threshold, calculation, hm, halert, hassess⟩
    obtain ⟨_, halert⟩ := Option.isSome_iff_exists.mp halert
    rw [Recovers, MetricDb.evaluate, hm]
    dsimp only
    rw [hassess, halert]
    exact ⟨_, _, _, rfl, rfl, rfl⟩

/-- No recovery is announced during a breach, unless the breach is one of a value whose run of samples is broken. -/
theorem recovered_healthy (db : MetricDb) (id : String) (ts : ℚ) :
    (Recovers db id ts → ¬ Breaching db id ts) ↔ ∀ m threshold options, ¬ Interrupted db id ts m threshold options := by
  constructor
  · intro h m threshold options hinterrupted
    have hvalue := valueBreaches_iff.mpr hinterrupted.breach
    refine h (recovers_iff.mpr ⟨m, threshold, calculateMetric options m.measureInterval (db.samples id ts) ts,
      hinterrupted.evaluated, hinterrupted.alert, ?_⟩)
      ⟨m, threshold, options, hinterrupted.evaluated, hinterrupted.calculated, hvalue⟩
    rw [assess, if_neg (by rw [hinterrupted.enabled]; decide), hinterrupted.calculated]
    dsimp only
    rw [if_pos hinterrupted.consecutive,
      assessConsecutive_broken hvalue ⟨hinterrupted.enough, hinterrupted.healthy⟩]
  · rintro h hrecovers ⟨m, threshold, options, hm, hoptions, hvalue⟩
    obtain ⟨m', threshold', _, hm', halert, hassess⟩ := recovers_iff.mp hrecovers
    obtain ⟨rfl, rfl⟩ : m = m' ∧ threshold = threshold' := by simpa [hm] using hm'
    obtain ⟨henabled, options', hoptions', rfl, hbroken⟩ := assess_healthy hassess
    obtain rfl : options = options' := by simpa [hoptions] using hoptions'
    obtain ⟨hconsecutive, henough, hhealthy⟩ := hbroken hvalue
    exact h m threshold options
      ⟨hm, hoptions, henabled, hconsecutive, halert, valueBreaches_iff.mp hvalue, henough, hhealthy⟩

open Sample.Builds in
/-- A success that is reported late: the last build failed, as did two of the three last ones. -/
theorem recovered_in_breach :
    ∃ db : MetricDb, db.Reachable ∧ Recovers db "builds" 40 ∧ Breaching db "builds" 40 := by
  refine ⟨_, run_reachable [.record "builds" 0 10, .record "builds" 0 20, .record "builds" 0 30,
    .evaluate "builds" 30 true, .record "builds" 1 25], ?_, ?_⟩
  · exact recovers_iff.mpr ⟨toDbDefinition definition, 1, ⟨.latest, some 0, 40, some 30, 1, none, none⟩,
      by decide +kernel, by decide +kernel, by decide +kernel⟩
  · exact ⟨toDbDefinition definition, 1, { method := .latest }, by decide +kernel, by decide +kernel, by decide +kernel⟩

end Recovery

end Metrics

end MayAgent
