import MayAgent.Host.Registry

/-!
# Published snapshots of Apps

One reload has its turn at a time, so the fence on the generation never holds a publication back: the published snapshots
are numbered without a gap, and the current one and the default source are those of the last publication.
-/

namespace MayAgent

namespace Registry

variable {σ δ ν : Type} {validation : Validation δ ν} {s : State σ ν}

def State.published (s : State σ ν) : List (σ × Snapshot ν) := s.ended.filterMap Except.toOption

theorem immutableEntries_ids {found : List (String × δ)} {ids : List String} {entries : List (Entry ν)}
    (h : immutableEntries validation ids found = .ok entries) :
    (entries.map Entry.id).Nodup ∧ ∀ id ∈ ids, id ∉ entries.map Entry.id := by
  induction found generalizing ids entries with
  | nil =>
    cases h
    exact ⟨List.nodup_nil, fun _ _ => List.not_mem_nil⟩
  | cons _ _ ih =>
    rw [immutableEntries] at h
    split at h
    case h_1 => cases h
    case h_2 id hid =>
      split at h
      case isTrue => cases h
      case isFalse hfresh =>
        split at h
        case h_1 => cases h
        case h_2 => cases h
        case h_3 rest hrest =>
          cases h
          obtain ⟨hnodup, hapart⟩ := ih hrest
          refine ⟨List.nodup_cons.mpr ⟨hapart id List.mem_cons_self, hnodup⟩, fun other hother => ?_⟩
          rw [List.map_cons, List.mem_cons, not_or]
          refine ⟨?_, hapart other (List.mem_cons_of_mem _ hother)⟩
          rintro rfl
          exact hfresh hother

structure Snapshot.Valid (bootId : String) (p : Snapshot ν) : Prop where
  id : p.id = bootId ++ ":" ++ toString p.generation
  apart : (p.entries.map Entry.id).Nodup

structure State.Sound (s : State σ ν) : Prop where
  unfenced : ∀ discover p, s.turn = some (.applying discover p) → p.generation = s.current.generation + 1 ∧ p.Valid s.bootId
  numbered : s.published.map (fun p => p.2.generation) = (List.range' 1 s.current.generation).reverse
  valid : ∀ p ∈ s.published, p.2.Valid s.bootId
  last : ∀ p, s.published.head? = some p → p = (s.discover, s.current)

theorem State.Sound.fail (h : s.Sound) (e : String) : (s.fail e).Sound :=
  ⟨fun _ _ hturn => (nomatch hturn), h.numbered, h.valid, h.last⟩

theorem State.Sound.next (h : s.Sound) (action : Action σ δ) : (s.next validation action).Sound := by
  cases action with
  | reload => exact ⟨h.unfenced, h.numbered, h.valid, h.last⟩
  | begin =>
    simp only [State.next]
    split
    · exact ⟨fun _ _ hturn => (nomatch hturn), h.numbered, h.valid, h.last⟩
    · exact h
  | discovered found =>
    simp only [State.next]
    split
    · split
      · exact h.fail _
      · rename_i entries hentries
        refine ⟨?_, h.numbered, h.valid, h.last⟩
        rintro _ _ ⟨⟩
        cases found with
        | error => cases hentries
        | ok => exact ⟨rfl, rfl, (immutableEntries_ids hentries).1⟩
    · exact h
  | applied =>
    simp only [State.next]
    split
    · rename_i discover prospective hturn
      obtain ⟨hgeneration, hvalid⟩ := h.unfenced _ _ hturn
      split
      · exact h.fail _
      · rw [if_neg (fun hstale => hstale hgeneration)]
        refine ⟨fun _ _ hturn => (nomatch hturn), ?_, List.forall_mem_cons.mpr ⟨hvalid, h.valid⟩, fun p hp => ?_⟩
        · show prospective.generation :: s.published.map _ = _
          rw [h.numbered, hgeneration, List.range'_1_concat, List.reverse_append, Nat.add_comm 1]
          rfl
        · exact (Option.some.inj hp).symm
    · exact h

/-- However reloads are requested, discovered and applied: a snapshot that was applied is published, the snapshots of a
process are numbered from one on without a gap, each has the id of its number and Apps with distinct ids, and the current
snapshot and the default source are those of the last publication. -/
theorem reloads_publish_in_order (h : Reachable validation s) :
    (∀ discover p, s.turn = some (.applying discover p) →
      (s.next validation (.applied (.ok ()))).ended = .ok (discover, p) :: s.ended) ∧
    s.published.map (fun p => p.2.generation) = (List.range' 1 s.current.generation).reverse ∧
    (∀ p ∈ s.published, p.2.Valid s.bootId) ∧ ∀ p, s.published.head? = some p → p = (s.discover, s.current) := by
  have hsound : s.Sound := by
    refine h.invariant ?_ fun s action hs _ => hs.next action
    rintro _ ⟨_, discover, rfl⟩
    exact ⟨fun _ _ hturn => (nomatch hturn), rfl, fun _ hp => (nomatch hp), fun _ hp => nomatch hp⟩
  refine ⟨fun discover p hturn => ?_, hsound.numbered, hsound.valid, hsound.last⟩
  simp only [State.next, hturn, (hsound.unfenced _ _ hturn).1, ne_eq, not_true_eq_false, if_false]

/-- A registry whose second reload finds a second App. -/
def Sample.loaded : State Unit Unit :=
  [.reload none, .begin, .discovered (.ok [("apps/a", "a")]), .applied (.ok ()),
    .reload none, .begin, .discovered (.ok [("apps/a", "a"), ("apps/b", "b")]), .applied (.ok ())].foldl
    (State.next ⟨Except.ok, fun _ : String => .ok ()⟩) (.initial "boot" ())

theorem reloads_publish_in_order_loaded : Sample.loaded.published.map (fun p => p.2.generation) = [2, 1] := by
  have hreach : Reachable _ Sample.loaded := (Reaches.start ⟨"boot", (), rfl⟩).foldl (fun _ _ => trivial) _
  exact (reloads_publish_in_order hreach).2.1

end Registry

end MayAgent
