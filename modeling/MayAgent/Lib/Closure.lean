import Mathlib.Data.Finset.Card
import Mathlib.Logic.Relation

/-!
# Bounded reachability in a partial graph

Breadth-first collection of the nodes reachable from a start set, in a graph of which only some
nodes are stored: `next k` is `none` for a missing node and the list of its successors otherwise.
-/

namespace MayAgent

variable {κ : Type*} [DecidableEq κ]

/-- Collects stored nodes in rounds. Every round but the last finds a new node, so a fuel above the
number of stored nodes visits everything reachable. -/
def closure (next : κ → Option (List κ)) : Nat → List κ → List κ → List κ
  | 0, _, seen => seen
  | fuel + 1, pending, seen =>
    let found := pending.eraseDups.filter fun k => (next k).isSome && !decide (k ∈ seen)
    if found.isEmpty then seen
    else closure next fuel (found.flatMap fun k => (next k).getD []) (seen ++ found)

namespace Closure

variable {next : κ → Option (List κ)}

def Edge (next : κ → Option (List κ)) (k k' : κ) : Prop := ∃ l, next k = some l ∧ k' ∈ l

def Reached (next : κ → Option (List κ)) (start : List κ) (k : κ) : Prop :=
  ∃ k₀ ∈ start, Relation.ReflTransGen (Edge next) k₀ k

/-- The nodes of one round: those pending that are stored and not seen. -/
def found (next : κ → Option (List κ)) (pending seen : List κ) : List κ :=
  pending.eraseDups.filter fun k => (next k).isSome && !decide (k ∈ seen)

theorem mem_found {pending seen : List κ} {k : κ} :
    k ∈ found next pending seen ↔ k ∈ pending ∧ (next k).isSome = true ∧ k ∉ seen := by
  simp [found, List.mem_filter]

theorem closure_succ (fuel : Nat) (pending seen : List κ) :
    closure next (fuel + 1) pending seen = if (found next pending seen).isEmpty then seen
      else closure next fuel ((found next pending seen).flatMap fun k => (next k).getD [])
        (seen ++ found next pending seen) := rfl

omit [DecidableEq κ] in
theorem mem_flatMap_next {l : List κ} {k : κ} :
    k ∈ l.flatMap (fun k => (next k).getD []) ↔ ∃ k₀ ∈ l, Edge next k₀ k := by
  rw [List.mem_flatMap]
  refine exists_congr fun k₀ => and_congr_right fun _ => ?_
  cases hnext : next k₀ with
  | none => simp [Edge, hnext]
  | some => simp [Edge, hnext]

theorem sound {start : List κ} (fuel : Nat) (pending seen : List κ)
    (hpending : ∀ k ∈ pending, Reached next start k)
    (hseen : ∀ k ∈ seen, (next k).isSome = true ∧ Reached next start k) :
    ∀ k ∈ closure next fuel pending seen, (next k).isSome = true ∧ Reached next start k := by
  induction fuel generalizing pending seen with
  | zero => exact hseen
  | succ _ ih =>
    rw [closure_succ]
    split
    · exact hseen
    · refine ih _ _ ?_ ?_
      · intro k hk
        obtain ⟨k₀, hk₀, hedge⟩ := mem_flatMap_next.mp hk
        obtain ⟨s, hs, hpath⟩ := hpending k₀ (mem_found.mp hk₀).1
        exact ⟨s, hs, hpath.tail hedge⟩
      · intro k hk
        rcases List.mem_append.mp hk with hold | hnew
        · exact hseen k hold
        · obtain ⟨hmem, hstored, -⟩ := mem_found.mp hnew
          exact ⟨hstored, hpending k hmem⟩

theorem complete {stored : Finset κ} (hstored : ∀ k, (next k).isSome = true → k ∈ stored) (fuel : Nat)
    (pending seen : List κ) (hfuel : (stored \ seen.toFinset).card < fuel)
    (hclosed : ∀ k ∈ seen, ∀ k', Edge next k k' → (next k').isSome = true → k' ∈ seen ∨ k' ∈ pending) :
    (∀ k ∈ seen, k ∈ closure next fuel pending seen) ∧
    (∀ k ∈ pending, (next k).isSome = true → k ∈ closure next fuel pending seen) ∧
    ∀ k ∈ closure next fuel pending seen, ∀ k', Edge next k k' → (next k').isSome = true →
      k' ∈ closure next fuel pending seen := by
  induction fuel generalizing pending seen with
  | zero => omega
  | succ _ ih =>
    rw [closure_succ]
    split
    · rename_i hempty
      have hnone : ∀ k ∈ pending, (next k).isSome = true → k ∈ seen := by
        intro k hk hsome
        by_contra hnew
        have := mem_found.mpr ⟨hk, hsome, hnew⟩
        rw [List.isEmpty_iff.mp hempty] at this
        cases this
      refine ⟨fun k hk => hk, hnone, fun k hk k' hedge hsome => ?_⟩
      exact (hclosed k hk k' hedge hsome).elim (fun h => h) fun h => hnone k' h hsome
    · rename_i hround
      obtain ⟨k₀, hk₀⟩ := List.exists_mem_of_ne_nil _ (fun h => hround (List.isEmpty_iff.mpr h))
      obtain ⟨-, hk₀stored, hk₀new⟩ := mem_found.mp hk₀
      -- the round adds k₀, so fewer stored nodes are left
      have hless : (stored \ (seen ++ found next pending seen).toFinset).card < (stored \ seen.toFinset).card := by
        refine Finset.card_lt_card ⟨Finset.sdiff_subset_sdiff (Finset.Subset.refl _) ?_, fun hsub => ?_⟩
        · intro k hk
          exact List.mem_toFinset.mpr (List.mem_append_left _ (List.mem_toFinset.mp hk))
        · have hmem := hsub (Finset.mem_sdiff.mpr ⟨hstored k₀ hk₀stored, fun h => hk₀new (List.mem_toFinset.mp h)⟩)
          exact (Finset.mem_sdiff.mp hmem).2 (List.mem_toFinset.mpr (List.mem_append_right _ hk₀))
      obtain ⟨hkept, _, hstep⟩ := ih ((found next pending seen).flatMap fun k => (next k).getD [])
        (seen ++ found next pending seen) (by omega) (by
          intro k hk k' hedge hsome
          rcases List.mem_append.mp hk with hold | hnew
          · rcases hclosed k hold k' hedge hsome with hin | hin
            · exact .inl (List.mem_append_left _ hin)
            · by_cases hk' : k' ∈ seen
              · exact .inl (List.mem_append_left _ hk')
              · exact .inl (List.mem_append_right _ (mem_found.mpr ⟨hin, hsome, hk'⟩))
          · exact .inr (mem_flatMap_next.mpr ⟨k, hnew, hedge⟩))
      refine ⟨fun k hk => hkept k (List.mem_append_left _ hk), fun k hk hsome => ?_, hstep⟩
      by_cases hold : k ∈ seen
      · exact hkept k (List.mem_append_left _ hold)
      · exact hkept k (List.mem_append_right _ (mem_found.mpr ⟨hk, hsome, hold⟩))

end Closure

/-- The closure is the set of stored nodes that can be reached. -/
theorem mem_closure {next : κ → Option (List κ)} {stored : Finset κ} (hstored : ∀ k, (next k).isSome = true → k ∈ stored)
    {fuel : Nat} (hfuel : stored.card < fuel) {start : List κ} {k : κ} :
    k ∈ closure next fuel start [] ↔ (next k).isSome = true ∧ Closure.Reached next start k := by
  constructor
  · exact Closure.sound fuel start [] (fun k hk => ⟨k, hk, .refl⟩) (fun _ hk => nomatch hk) k
  · rintro ⟨hsome, k₀, hk₀, hpath⟩
    obtain ⟨-, hstart, hclosed⟩ := Closure.complete hstored fuel start [] (by simpa using hfuel) (fun _ hk => nomatch hk)
    induction hpath with
    | refl => exact hstart k₀ hk₀ hsome
    | @tail k k' _ hedge ih =>
      obtain ⟨l, hl, -⟩ := id hedge
      exact hclosed k (ih (by simp [hl])) k' hedge hsome

end MayAgent
