import MayAgent.Host.Relay
import Mathlib.Data.List.Chain

/-!
# Pacing and losslessness of the worker relay

What reaches the bus from a worker is always an initial part of what the worker sent, in the order of
arrival, and a worker returns only when it is all of it. The pacing is weaker: a turn that leaves frames
of its worker behind arms two timers, one in the callback and one after it, so the relay is paced in the
runs without such a turn.
-/

namespace MayAgent

namespace Relay

def appliedOf (s : Relay) (id : String) : List WorkerFrame :=
  (s.applied.filter fun a => a.worker = id).map AppliedFrame.frame

variable {s : Relay} {id : String} {w : Worker}

@[simp] theorem setWorker_applied (s : Relay) (id : String) (w : Worker) : (s.setWorker id w).applied = s.applied := rfl

@[simp] theorem setWorker_pending (s : Relay) (id : String) (w : Worker) : (s.setWorker id w).pending = s.pending := rfl

@[simp] theorem setWorker_scheduled (s : Relay) (id : String) (w : Worker) :
    (s.setWorker id w).scheduled = s.scheduled := rfl

@[simp] theorem setWorker_timers (s : Relay) (id : String) (w : Worker) : (s.setWorker id w).timers = s.timers := rfl

@[simp] theorem setWorker_now (s : Relay) (id : String) (w : Worker) : (s.setWorker id w).now = s.now := rfl

@[simp] theorem setWorker_self (s : Relay) (id : String) (w : Worker) : (s.setWorker id w).workers id = w := by
  simp [setWorker]

theorem setWorker_other {other : String} (hne : other ≠ id) (s : Relay) (w : Worker) :
    (s.setWorker id w).workers other = s.workers other := by
  simp [setWorker, hne]

@[simp] theorem scheduleWorkerRelay_workers (s : Relay) (id : String) :
    (s.scheduleWorkerRelay id).workers = s.workers := by
  unfold scheduleWorkerRelay
  dsimp only
  split <;> rfl

@[simp] theorem scheduleWorkerRelay_applied (s : Relay) (id : String) :
    (s.scheduleWorkerRelay id).applied = s.applied := by
  unfold scheduleWorkerRelay
  dsimp only
  split <;> rfl

theorem enqueueFrame_other {other : String} (hne : other ≠ id) (s : Relay) (frame : WorkerFrame) :
    (s.enqueueFrame id frame).workers other = s.workers other := by
  unfold enqueueFrame
  dsimp only
  split <;> simp [setWorker_other hne]

theorem enqueueFrame_self (s : Relay) (id : String) (frame : WorkerFrame) :
    ((s.enqueueFrame id frame).workers id).frames = (s.workers id).frames ++ [frame] ∧
      ((s.enqueueFrame id frame).workers id).received = (s.workers id).received ∧
      ((s.enqueueFrame id frame).workers id).outcome = (s.workers id).outcome := by
  unfold enqueueFrame
  dsimp only
  split <;> simp

@[simp] theorem enqueueFrame_applied (s : Relay) (id : String) (frame : WorkerFrame) :
    (s.enqueueFrame id frame).applied = s.applied := by
  unfold enqueueFrame
  dsimp only
  split <;> simp

theorem appliedOf_congr {s' : Relay} (h : s'.applied = s.applied) (id : String) : s'.appliedOf id = s.appliedOf id := by
  simp only [appliedOf, h]

/-! ### What became of the frames of a worker -/

/-- The frames of `w` were applied in order, with `applied` the ones so far; the others wait in order
until a protocol error ends the worker, and the worker returned only with none left. -/
structure Accounted (applied : List WorkerFrame) (w : Worker) : Prop where
  received : applied ++ w.frames <+: w.received
  complete : w.protocolError = none → applied ++ w.frames = w.received
  returned : ∀ ids, w.outcome = some (.returned ids) → w.closed.isSome ∧ applied = w.received

namespace Accounted

variable {applied : List WorkerFrame}

theorem of_eq (h : Accounted applied w) {w' : Worker} (hframes : w'.frames = w.frames)
    (hreceived : w'.received = w.received) (herror : w'.protocolError = none → w.protocolError = none)
    (hclosed : w.closed.isSome → w'.closed.isSome)
    (houtcome : ∀ ids, w'.outcome = some (.returned ids) → w.outcome = some (.returned ids)) :
    Accounted applied w' where
  received := by
    rw [hframes, hreceived]
    exact h.received
  complete hnone := by
    rw [hframes, hreceived]
    exact h.complete (herror hnone)
  returned ids hids := by
    obtain ⟨hclosed', hall⟩ := h.returned ids (houtcome ids hids)
    exact ⟨hclosed hclosed', hall.trans hreceived.symm⟩

theorem scheduled (h : Accounted applied w) (b : Bool) : Accounted applied { w with relayScheduled := b } :=
  h.of_eq rfl rfl (fun hnone => hnone) (fun hclosed => hclosed) (fun _ hids => hids)

theorem conclude_returned {exit : WorkerExit} {ids : List String} (h : conclude w exit = .returned ids) :
    w.protocolError = none := by
  unfold conclude at h
  split at h
  · cases h
  · cases h
  · assumption

theorem settle (h : Accounted applied w) (hframes : w.frames = []) : Accounted applied (Relay.settle w) := by
  unfold Relay.settle
  split
  case h_1 exit hclosed hnone =>
    refine ⟨h.received, h.complete, fun ids hids => ⟨by simp [hclosed], ?_⟩⟩
    have herror := conclude_returned (Option.some.inj hids)
    simpa [hframes] using h.complete herror
  case h_2 => exact h

theorem apply {frame : WorkerFrame} {rest : List WorkerFrame} (h : Accounted applied w)
    (hframes : w.frames = frame :: rest) {w' : Worker} (hreceived : w'.received = w.received)
    (hleft : w'.frames = rest ∧ w'.protocolError = w.protocolError ∨ w'.frames = [] ∧ w'.protocolError ≠ none)
    (houtcome : w'.outcome = w.outcome) : Accounted (applied ++ [frame]) w' := by
  have hall : applied ++ [frame] ++ rest <+: w.received := by simpa [hframes] using h.received
  refine ⟨?_, fun hnone => ?_, fun ids hids => ?_⟩
  · rw [hreceived]
    rcases hleft with ⟨hrest, -⟩ | ⟨hnil, -⟩
    · rwa [hrest]
    · rw [hnil, List.append_nil]
      exact (List.prefix_append _ rest).trans hall
  · rcases hleft with ⟨hrest, herror⟩ | ⟨-, herror⟩
    · have := h.complete (herror ▸ hnone)
      rw [hrest, hreceived, ← this, hframes]
      simp
    · exact absurd hnone herror
  · -- A worker that has returned has no frame left to apply.
    have hdone := (h.returned ids (houtcome ▸ hids)).2
    have hlength := hall.length_le
    rw [← hdone] at hlength
    simp only [List.length_append, List.length_singleton] at hlength
    omega

end Accounted

def Lossless (s : Relay) : Prop := ∀ id, Accounted (s.appliedOf id) (s.workers id)

namespace Lossless

theorem of_eq {s' : Relay} (h : Lossless s) (hworkers : s'.workers = s.workers) (happlied : s'.applied = s.applied) :
    Lossless s' := by
  intro id
  rw [hworkers, appliedOf_congr happlied]
  exact h id

theorem replace {s' : Relay} (h : Lossless s) (hothers : ∀ other ≠ id, s'.workers other = s.workers other)
    (happlied : s'.applied = s.applied) (hw : Accounted (s.appliedOf id) (s'.workers id)) : Lossless s' := by
  intro other
  rw [appliedOf_congr happlied]
  by_cases hother : other = id
  · rw [hother]
    exact hw
  · rw [hothers other hother]
    exact h other

theorem setWorker (h : Lossless s) (hw : Accounted (s.appliedOf id) w) : Lossless (s.setWorker id w) := by
  refine h.replace (fun other hother => setWorker_other hother s w) rfl ?_
  rwa [setWorker_self]

theorem apply {frame : WorkerFrame} (h : Lossless s) (hw : Accounted (s.appliedOf id ++ [frame]) w) :
    Lossless (({ s with applied := s.applied ++ [(⟨id, frame, s.now⟩ : AppliedFrame)] } : Relay).setWorker id w) := by
  intro other
  by_cases hother : other = id
  · rw [hother, setWorker_self]
    simpa [appliedOf] using hw
  · rw [setWorker_other hother]
    simpa [appliedOf, Ne.symm hother] using h other

theorem applyFrames (failure : Option String) (id : String) (count : Nat) (h : Lossless s) :
    Lossless (Relay.applyFrames failure id count s) := by
  induction count generalizing s with
  | zero => exact h
  | succ _ ih =>
    unfold Relay.applyFrames
    dsimp only
    split
    case h_1 => exact h
    case h_2 frame rest hframes =>
      split
      case h_1 message =>
        refine h.apply ((h id).apply hframes ?_ (.inr ⟨?_, ?_⟩) ?_)
        all_goals simp
      case h_2 =>
        refine ih (h.apply ((h id).apply hframes ?_ (.inl ⟨?_, ?_⟩) ?_))
        all_goals cases frame <;> rfl

theorem drainFrames (failure : Option String) (id : String) (h : Lossless s) : Lossless (s.drainFrames failure id) := by
  unfold Relay.drainFrames
  dsimp only
  have hidle : Lossless (s.setWorker id { s.workers id with relayScheduled := false }) :=
    h.setWorker ((h id).scheduled false)
  have hdrained := hidle.applyFrames failure id WORKER_RELAY_BATCH_SIZE
  generalize Relay.applyFrames failure id WORKER_RELAY_BATCH_SIZE _ = s' at hdrained ⊢
  split
  case isTrue hempty => exact hdrained.setWorker ((hdrained id).settle (List.isEmpty_iff.mp hempty))
  case isFalse =>
    exact of_eq (hdrained.setWorker ((hdrained id).scheduled true)) (by simp) (by simp)

theorem drainOne (failure : Option String) (h : Lossless s) : Lossless (s.drainOne failure) := by
  have hrun : Lossless (({ s with scheduled := false }).runPending failure) := by
    unfold runPending
    split
    case h_1 => exact h.of_eq rfl rfl
    case h_2 => exact drainFrames failure _ (of_eq h rfl rfl)
  unfold Relay.drainOne
  dsimp only
  split
  · exact hrun
  · exact hrun.of_eq rfl rfl

theorem receive (h : Lossless s) (hopen : (s.workers id).closed = none) (parsed : Except String WorkerFrame) :
    Lossless (s.receive id parsed) := by
  have hfresh : ∀ ids, (s.workers id).outcome ≠ some (.returned ids) := by
    intro ids hids
    simpa [hopen] using ((h id).returned ids hids).1
  unfold Relay.receive
  cases parsed with
  | error =>
    dsimp only
    split
    · exact h
    · exact h.setWorker ((h id).of_eq rfl rfl nofun (fun hclosed => hclosed) (fun _ hids => hids))
  | ok frame =>
    dsimp only
    split
    case isTrue herror =>
      refine h.setWorker ⟨(h id).received.trans (List.prefix_append _ _), fun hnone => ?_, fun ids hids => ?_⟩
      · simp_all
      · exact absurd hids (hfresh ids)
    case isFalse herror =>
      rw [setWorker_self, Bool.not_eq_true, Option.isSome_eq_false_iff, Option.isNone_iff_eq_none] at herror
      have hall := (h id).complete herror
      refine h.replace (fun other (hother : other ≠ id) => ?_) (by simp) ?_
      · rw [enqueueFrame_other hother, setWorker_other hother]
      · obtain ⟨hframes, hreceived, houtcome⟩ := enqueueFrame_self
          (s.setWorker id { s.workers id with received := (s.workers id).received ++ [frame] }) id frame
        rw [setWorker_self] at hframes hreceived houtcome
        have heq : s.appliedOf id ++ ((s.workers id).frames ++ [frame]) = (s.workers id).received ++ [frame] := by
          rw [← List.append_assoc, hall]
        refine ⟨?_, fun _ => ?_, fun ids hids => absurd (houtcome ▸ hids) (hfresh ids)⟩
        · rw [hframes, hreceived]
          exact heq ▸ List.prefix_refl _
        · rw [hframes, hreceived]
          exact heq

theorem next (h : Lossless s) (action : RelayAction) (henabled : s.Enabled action) : Lossless (s.next action) := by
  cases action with
  | message => exact h.receive henabled _
  | failInput id =>
    exact h.setWorker ((h id).of_eq rfl rfl nofun (fun hclosed => hclosed) (fun _ hids => hids))
  | close id exit =>
    have hclosed : Accounted (s.appliedOf id) { s.workers id with closed := some exit } :=
      (h id).of_eq rfl rfl (fun hnone => hnone) (fun _ => rfl) (fun _ hids => hids)
    refine h.setWorker ?_
    split
    case isTrue hidle => exact hclosed.settle (List.isEmpty_iff.mp (Bool.and_eq_true_iff.mp hidle).1)
    case isFalse => exact hclosed
  | abort id =>
    refine h.setWorker ((h id).of_eq rfl rfl (fun hnone => hnone) (fun hclosed => hclosed) (fun ids hids => ?_))
    cases houtcome : (s.workers id).outcome with
    | none => simp [houtcome] at hids
    | some => simpa [houtcome] using hids
  | wait => exact h.of_eq rfl rfl
  | fire _ failure => exact drainOne failure (h.of_eq rfl rfl)

end Lossless

theorem Reachable.lossless {ok : Relay → RelayAction → Prop} (h : Reachable ok s) : Lossless s := by
  refine Reaches.invariant (fun s hinit id => ?_) (fun s action hs hok => hs.next action hok.1) h
  have happlied : s.appliedOf id = [] := by simp [appliedOf, hinit.applied]
  rw [happlied, hinit.workers id]
  exact ⟨List.prefix_refl _, fun _ => rfl, nofun⟩

/-! ### Turns -/

/-- The gap that every two consecutive frames are to leave. -/
def Apart (a b : AppliedFrame) : Prop := a.at_ + WORKER_RELAY_TURN_DELAY_MS ≤ b.at_

instance : DecidableRel Apart := fun a b => inferInstanceAs (Decidable (a.at_ + WORKER_RELAY_TURN_DELAY_MS ≤ b.at_))

/-- One timer at most, and none without the flag; frames a turn apart, the next turn included. -/
structure Paced (s : Relay) : Prop where
  apart : s.applied.IsChain Apart
  past : ∀ a ∈ s.applied.getLast?, a.at_ ≤ s.now
  timer : (s.scheduled = true ∧ ∃ due, s.timers = [due] ∧
      ∀ a ∈ s.applied.getLast?, a.at_ + WORKER_RELAY_TURN_DELAY_MS ≤ due) ∨
    (s.scheduled = false ∧ s.timers = [] ∧ s.pending = [])

/-- At a turn the worker at the head of the queue has no second frame, unless applying the first one throws. -/
def OneQueued (s : Relay) : RelayAction → Prop
  | .fire _ failure => ∀ id ∈ s.pending.head?, (s.workers id).frames.length ≤ 1 ∨ failure.isSome
  | _ => True

def turnFrames (s : Relay) (id : String) : List AppliedFrame :=
  ((s.workers id).frames.head?.map fun frame => ⟨id, frame, s.now⟩).toList

structure SameScheduler (s s' : Relay) : Prop where
  now : s'.now = s.now
  pending : s'.pending = s.pending
  scheduled : s'.scheduled = s.scheduled
  timers : s'.timers = s.timers

theorem applyFrames_one (failure : Option String) (s : Relay) (id : String) :
    SameScheduler s (applyFrames failure id 1 s) ∧ (applyFrames failure id 1 s).applied = s.applied ++ s.turnFrames id ∧
      ((applyFrames failure id 1 s).workers id).frames =
        if failure.isSome then [] else (s.workers id).frames.tail := by
  unfold turnFrames
  dsimp only [applyFrames]
  cases hframes : (s.workers id).frames with
  | nil => exact ⟨⟨rfl, rfl, rfl, rfl⟩, by simp, by simp [hframes]⟩
  | cons =>
    cases failure with
    | some => exact ⟨⟨rfl, rfl, rfl, rfl⟩, by simp, by simp⟩
    | none => exact ⟨⟨rfl, rfl, rfl, rfl⟩, by simp, by simp⟩

/-- A drain that leaves no frame behind does not touch the scheduler; any other one arms a timer of its own. -/
theorem drainFrames_spec (failure : Option String) (s : Relay) (id : String) :
    (s.drainFrames failure id).applied = s.applied ++ s.turnFrames id ∧ (s.drainFrames failure id).now = s.now ∧
      ((s.workers id).frames.length ≤ 1 ∨ failure.isSome → SameScheduler s (s.drainFrames failure id)) ∧
      (¬((s.workers id).frames.length ≤ 1 ∨ failure.isSome) → s.scheduled = false →
        (s.drainFrames failure id).pending ≠ [] ∧
          (s.drainFrames failure id).timers = s.timers ++ [s.now + WORKER_RELAY_TURN_DELAY_MS]) := by
  obtain ⟨hsame, happlied, hframes⟩ :=
    applyFrames_one failure (s.setWorker id { s.workers id with relayScheduled := false }) id
  have hturn : (s.setWorker id { s.workers id with relayScheduled := false }).turnFrames id = s.turnFrames id := by
    simp [turnFrames]
  rw [setWorker_applied, hturn] at happlied
  rw [setWorker_self] at hframes
  dsimp only at hframes
  unfold drainFrames
  dsimp only [WORKER_RELAY_BATCH_SIZE]
  generalize applyFrames failure id 1 _ = s' at hsame happlied hframes ⊢
  have hempty : (s'.workers id).frames = [] ↔ (s.workers id).frames.length ≤ 1 ∨ failure.isSome := by
    rw [hframes]
    cases failure <;> simp [← List.length_eq_zero_iff]; omega
  split
  case isTrue hleft =>
    refine ⟨happlied, hsame.now, fun _ => ⟨hsame.now, hsame.pending, hsame.scheduled, hsame.timers⟩, fun hmany => ?_⟩
    exact absurd (hempty.mp (List.isEmpty_iff.mp hleft)) hmany
  case isFalse hleft =>
    refine ⟨by simpa using happlied, ?_, fun hone => ?_, fun _ hidle => ?_⟩
    · unfold scheduleWorkerRelay
      dsimp only
      split <;> exact hsame.now
    · exact absurd (List.isEmpty_iff.mpr (hempty.mpr hone)) hleft
    · have hfree : s'.scheduled = false := hsame.scheduled.trans hidle
      simp [scheduleWorkerRelay, hfree, arm, hsame.timers, hsame.now]

namespace Paced

theorem of_same {s' : Relay} (h : Paced s) (hsame : SameScheduler s s') (happlied : s'.applied = s.applied) :
    Paced s' := by
  refine ⟨?_, ?_, ?_⟩
  · rw [happlied]
    exact h.apart
  · rw [happlied, hsame.now]
    exact h.past
  · rw [happlied, hsame.scheduled, hsame.timers, hsame.pending]
    exact h.timer

theorem setWorker (h : Paced s) (id : String) (w : Worker) : Paced (s.setWorker id w) :=
  h.of_same ⟨rfl, rfl, rfl, rfl⟩ rfl

theorem length_timers_le (h : Paced s) : s.timers.length ≤ 1 := by
  rcases h.timer with ⟨-, due, htimers, -⟩ | ⟨-, htimers, -⟩ <;> simp [htimers]

theorem arm (hapart : s.applied.IsChain Apart) (hpast : ∀ a ∈ s.applied.getLast?, a.at_ ≤ s.now)
    (htimers : s.timers = []) : Paced s.arm := by
  refine ⟨hapart, hpast, .inl ⟨rfl, s.now + WORKER_RELAY_TURN_DELAY_MS, ?_, fun a ha => ?_⟩⟩
  · simp [Relay.arm, htimers]
  · have := hpast a ha
    omega

theorem scheduleWorkerRelay (h : Paced s) (id : String) : Paced (s.scheduleWorkerRelay id) := by
  unfold Relay.scheduleWorkerRelay
  dsimp only
  rcases h.timer with ⟨hscheduled, hdue⟩ | ⟨hscheduled, htimers, -⟩
  · rw [if_pos hscheduled]
    exact ⟨h.apart, h.past, .inl ⟨hscheduled, hdue⟩⟩
  · rw [if_neg (by simp [hscheduled])]
    exact arm h.apart h.past htimers

theorem enqueueFrame (h : Paced s) (id : String) (frame : WorkerFrame) : Paced (s.enqueueFrame id frame) := by
  unfold Relay.enqueueFrame
  dsimp only
  split
  · exact h.setWorker _ _
  · exact (h.setWorker _ _).scheduleWorkerRelay id

theorem receive (h : Paced s) (id : String) (parsed : Except String WorkerFrame) : Paced (s.receive id parsed) := by
  unfold Relay.receive
  cases parsed with
  | error =>
    dsimp only
    split
    · exact h
    · exact h.setWorker _ _
  | ok frame =>
    dsimp only
    split
    · exact h.setWorker _ _
    · exact (h.setWorker _ _).enqueueFrame id frame

end Paced

theorem turnFrames_cases (s : Relay) (id : String) :
    s.turnFrames id = [] ∨ ∃ frame, s.turnFrames id = [⟨id, frame, s.now⟩] := by
  unfold turnFrames
  cases (s.workers id).frames.head? with
  | none => exact .inl rfl
  | some frame => exact .inr ⟨frame, rfl⟩

theorem past_of_gap (hgap : ∀ a ∈ s.applied.getLast?, a.at_ + WORKER_RELAY_TURN_DELAY_MS ≤ s.now) :
    ∀ a ∈ s.applied.getLast?, a.at_ ≤ s.now := by
  intro a ha
  have hdelay : 0 < WORKER_RELAY_TURN_DELAY_MS := by decide
  have := hgap a ha
  omega

theorem apart_turnFrames (hapart : s.applied.IsChain Apart)
    (hgap : ∀ a ∈ s.applied.getLast?, a.at_ + WORKER_RELAY_TURN_DELAY_MS ≤ s.now) (id : String) :
    (s.applied ++ s.turnFrames id).IsChain Apart ∧ ∀ a ∈ (s.applied ++ s.turnFrames id).getLast?, a.at_ ≤ s.now := by
  rcases s.turnFrames_cases id with hnil | ⟨frame, hframe⟩
  · rw [hnil, List.append_nil]
    exact ⟨hapart, past_of_gap hgap⟩
  · rw [hframe]
    refine ⟨List.isChain_append.mpr ⟨hapart, List.isChain_singleton _, fun a ha b hb => ?_⟩, fun a ha => ?_⟩
    · cases hb
      exact hgap a ha
    · simp only [List.getLast?_concat, Option.mem_some_iff] at ha
      exact ha ▸ Int.le_refl s.now

/-- A turn that begins without a timer, at least a turn delay after the last frame, and leaves no frame of its
worker behind. -/
theorem Paced.drainOne {failure : Option String} (hapart : s.applied.IsChain Apart)
    (hgap : ∀ a ∈ s.applied.getLast?, a.at_ + WORKER_RELAY_TURN_DELAY_MS ≤ s.now) (htimers : s.timers = [])
    (hone : ∀ id ∈ s.pending.head?, (s.workers id).frames.length ≤ 1 ∨ failure.isSome) :
    Paced (s.drainOne failure) := by
  have hrun : ({ s with scheduled := false }.runPending failure).applied.IsChain Apart ∧
      (∀ a ∈ ({ s with scheduled := false }.runPending failure).applied.getLast?,
        a.at_ ≤ ({ s with scheduled := false }.runPending failure).now) ∧
      ({ s with scheduled := false }.runPending failure).scheduled = false ∧
      ({ s with scheduled := false }.runPending failure).timers = [] := by
    unfold runPending
    cases hpending : s.pending with
    | nil => exact ⟨hapart, past_of_gap hgap, rfl, htimers⟩
    | cons id rest =>
      obtain ⟨happlied, hnow, hlast, -⟩ := drainFrames_spec failure { s with scheduled := false, pending := rest } id
      have hsame := hlast (hone id (by simp [hpending]))
      obtain ⟨hchain, hpast⟩ := apart_turnFrames hapart hgap id
      dsimp only
      rw [happlied, hnow]
      exact ⟨hchain, hpast, hsame.scheduled, hsame.timers.trans htimers⟩
  unfold Relay.drainOne
  dsimp only
  generalize runPending _ failure = s' at hrun ⊢
  obtain ⟨hapart', hpast', hidle, htimers'⟩ := hrun
  split
  case isTrue hnil => exact ⟨hapart', hpast', .inr ⟨hidle, htimers', List.isEmpty_iff.mp hnil⟩⟩
  case isFalse => exact arm hapart' hpast' htimers'

theorem Paced.next (h : Paced s) (action : RelayAction) (henabled : s.Enabled action) (hone : s.OneQueued action) :
    Paced (s.next action) := by
  cases action with
  | message id => exact h.receive id _
  | failInput id => exact h.setWorker id _
  | close id => exact h.setWorker id _
  | abort id => exact h.setWorker id _
  | wait ms =>
    refine ⟨h.apart, fun a ha => ?_, h.timer⟩
    have := h.past a ha
    show a.at_ ≤ s.now + ms
    omega
  | fire =>
    obtain ⟨hmem, hdue⟩ := henabled
    rcases h.timer with ⟨-, due', htimers, hgap⟩ | ⟨-, htimers, -⟩
    · rw [htimers, List.mem_singleton] at hmem
      subst hmem
      refine Paced.drainOne h.apart (fun a ha => Int.le_trans (hgap a ha) hdue) ?_ hone
      simp [htimers]
    · simp [htimers] at hmem

/-- The exact condition: from a paced relay, a turn that leaves a frame behind ends with two timers. -/
theorem Paced.two_timers (h : Paced s) {action : RelayAction} (henabled : s.Enabled action)
    (hmany : ¬s.OneQueued action) : (s.next action).timers.length = 2 := by
  cases action with
  | fire _ failure =>
    obtain ⟨hmem, hdue⟩ := henabled
    rcases h.timer with ⟨-, due', htimers, -⟩ | ⟨-, htimers, -⟩
    · rw [htimers, List.mem_singleton] at hmem
      subst hmem
      simp only [OneQueued, not_forall] at hmany
      obtain ⟨id, hid, hmany⟩ := hmany
      obtain ⟨rest, hpending⟩ : ∃ rest, s.pending = id :: rest := by
        cases hp : s.pending <;> simp_all
      obtain ⟨-, -, -, hagain⟩ := drainFrames_spec failure
        { s with timers := [], scheduled := false, pending := rest } id
      obtain ⟨hleft, hown⟩ := hagain hmany rfl
      simp only [Relay.next, Relay.drainOne, runPending, hpending, htimers, List.erase_cons_head]
      rw [if_neg (by simpa using hleft)]
      simp [Relay.arm, hown]
    · simp [htimers] at hmem
  | message | failInput | close | abort | wait => exact absurd trivial hmany

theorem Reachable.paced (h : Reachable OneQueued s) : Paced s := by
  refine Reaches.invariant (fun s hinit => ?_) (fun s action hs hok => hs.next action hok.1 hok.2) h
  refine ⟨?_, ?_, .inr ⟨hinit.scheduled, hinit.timers, hinit.pending⟩⟩ <;> simp [hinit.applied]

theorem length_applied_next_le (s : Relay) (action : RelayAction) :
    (s.next action).applied.length ≤ s.applied.length + 1 := by
  cases action with
  | message =>
    refine Nat.le_succ_of_le (le_of_eq (congrArg List.length ?_))
    unfold next receive
    dsimp only
    split <;> split <;> simp
  | fire _ failure =>
    have hrun : ∀ s : Relay, (s.runPending failure).applied.length ≤ s.applied.length + 1 := by
      intro s
      unfold runPending
      split
      case h_1 => exact Nat.le_succ _
      case h_2 id rest _ =>
        rw [(drainFrames_spec failure { s with pending := rest } id).1]
        rcases turnFrames_cases { s with pending := rest } id with hturn | ⟨frame, hturn⟩ <;> simp [hturn]
    unfold next drainOne
    dsimp only
    split <;> exact hrun _
  | failInput | close | abort | wait => exact Nat.le_succ _

end Relay

open Relay in
/-- In every run whose turns find at most one frame at the head of the queue, the relay has at most one
timer, its frames are applied one a turn, a turn delay apart, in the order of their arrival and each once,
and a worker returns only when all its frames are applied. Other runs lose the pacing with the first turn
that leaves a frame of its worker behind. -/
theorem relay_paced_and_lossless {s : Relay} (h : Relay.Reachable OneQueued s) :
    s.timers.length ≤ 1 ∧ s.applied.IsChain Apart ∧
      (∀ action, (s.next action).applied.length ≤ s.applied.length + 1) ∧
      (∀ id, s.appliedOf id <+: (s.workers id).received) ∧
      (∀ id ids, (s.workers id).outcome = some (.returned ids) → s.appliedOf id = (s.workers id).received) ∧
      (∀ action, s.Enabled action → ((s.next action).timers.length ≤ 1 ↔ s.OneQueued action)) := by
  refine ⟨h.paced.length_timers_le, h.paced.apart, s.length_applied_next_le, fun id => ?_, fun id ids hids => ?_,
    fun action henabled => ⟨fun hle => ?_, fun hone => ?_⟩⟩
  · exact (List.prefix_append _ _).trans (h.lossless id).received
  · exact ((h.lossless id).returned ids hids).2
  · by_contra hmany
    have := h.paced.two_timers henabled hmany
    omega
  · exact (h.paced.next action henabled hone).length_timers_le

/-! ### One worker on a bus -/

namespace Relay

theorem Reachable.step {s : Relay} {ok : Relay → RelayAction → Prop} (h : Reachable ok s) (action : RelayAction)
    (henabled : s.Enabled action) (hok : ok s action) : Reachable ok (s.next action) :=
  Reaches.step h ⟨henabled, hok⟩

namespace Sample

def bus : Relay where
  now := 0
  pending := []
  scheduled := false
  timers := []
  workers _ := {}
  applied := []

theorem reachable_bus (ok : Relay → RelayAction → Prop) : Reachable ok bus :=
  Reaches.start ⟨rfl, rfl, rfl, fun _ => rfl, rfl⟩

def send (worker : String) (eventId : Int) : RelayAction :=
  .message worker ⟨60, .obj [("event", .obj [("type", .str "note")]), ("eventId", .num eventId), ("kind", .str "event")]⟩

def paced : Relay :=
  (((((bus.next (send "a" 1)).next (send "b" 2)).next (.wait 5)).next (.fire 5 none)).next (.wait 5)).next (.fire 10 none)

def burst : Relay :=
  (((((((bus.next (send "a" 1)).next (send "a" 2)).next (send "a" 3)).next (.wait 5)).next (.fire 5 none)).next (.wait 5)).next
    (.fire 10 none)).next (.fire 10 none)

theorem reachable_paced : Reachable OneQueued paced := by
  have hsent := ((reachable_bus OneQueued).step (send "a" 1) rfl trivial).step (send "b" 2) rfl trivial
  have hfirst := (hsent.step (.wait 5) trivial trivial).step (.fire 5 none) (by decide) fun id hid => by
    cases hid
    exact .inl (by decide)
  refine (hfirst.step (.wait 5) trivial trivial).step (.fire 10 none) (by decide) fun id hid => ?_
  cases hid
  exact .inl (by decide)

theorem reachable_burst : Reachable (fun _ _ => True) burst := by
  have hsent := (((reachable_bus fun _ _ => True).step (send "a" 1) rfl trivial).step (send "a" 2) rfl trivial).step
    (send "a" 3) rfl trivial
  have hfirst := (hsent.step (.wait 5) trivial trivial).step (.fire 5 none) (by decide) trivial
  exact ((hfirst.step (.wait 5) trivial trivial).step (.fire 10 none) (by decide) trivial).step (.fire 10 none)
    (by decide) trivial

end Sample

end Relay

open Relay in
theorem relay_paced_two_workers : Sample.paced.applied.map AppliedFrame.at_ = [5, 10] ∧ Sample.paced.timers.length ≤ 1 ∧
    Sample.paced.applied.IsChain Apart :=
  ⟨by decide, (relay_paced_and_lossless Sample.reachable_paced).1, (relay_paced_and_lossless Sample.reachable_paced).2.1⟩

open Relay in
/-- Three frames of one worker that arrive together: the second and the third are applied at the same time,
by two timers that are outstanding together. -/
theorem relay_burst_not_paced :
    Relay.Reachable (fun _ _ => True) Sample.burst ∧ ¬Sample.burst.timers.length ≤ 1 ∧
      Sample.burst.applied.map AppliedFrame.at_ = [5, 10, 10] ∧ ¬Sample.burst.applied.IsChain Apart := by
  exact ⟨Sample.reachable_burst, by decide, by decide, by decide⟩

end MayAgent
