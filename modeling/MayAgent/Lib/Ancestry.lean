import Mathlib.Logic.Relation

/-!
# Parent links

A graph in which every node has at most one parent, given by the partial function `up`. A node lies on
a cycle if its own links return to it. Moving one node below another closes no cycle as long as the
links from the new parent do not lead to the moved node.
-/

namespace MayAgent.Ancestry

variable {κ : Type*} {up up' : κ → Option κ} {a b k : κ}

def Link (up : κ → Option κ) (a b : κ) : Prop := up a = some b

/-- The links from `a` lead to `b`. -/
def Leads (up : κ → Option κ) : κ → κ → Prop := Relation.ReflTransGen (Link up)

def Returns (up : κ → Option κ) (a : κ) : Prop := Relation.TransGen (Link up) a a

theorem Leads.eq_of_root (h : Leads up a b) (hroot : up a = none) : b = a := by
  rcases Relation.ReflTransGen.cases_head h with heq | ⟨p, hlink, -⟩
  · exact heq.symm
  · exact absurd (hlink.symm.trans hroot) (by simp)

theorem Leads.parent (h : Leads up a b) (hne : a ≠ b) (hup : up a = some k) : Leads up k b := by
  rcases Relation.ReflTransGen.cases_head h with heq | ⟨p, hlink, hrest⟩
  · exact absurd heq hne
  · cases hlink.symm.trans hup
    exact hrest

theorem Leads.congr (hsame : ∀ j, Leads up a j → up' j = up j) (h : Leads up' a b) : Leads up a b := by
  induction h with
  | refl => exact .refl
  | tail _ hlink ih => exact ih.tail ((hsame _ ih).symm.trans hlink)

theorem Leads.of_changed (hsame : ∀ j, j ≠ k → up' j = up j) (h : Leads up' a k) : Leads up a k := by
  induction h using Relation.ReflTransGen.head_induction_on with
  | refl => exact .refl
  | @head a b hlink _ ih =>
    by_cases ha : a = k
    · rw [ha]
      exact .refl
    · exact ih.head ((hsame a ha).symm.trans hlink)

/-- A path after one link changed is a path before, or it passes the node with that link. -/
theorem path_cases (hsame : ∀ j, j ≠ k → up' j = up j) (h : Relation.TransGen (Link up') a b) :
    Relation.TransGen (Link up) a b ∨ Leads up' a k ∧ Relation.TransGen (Link up') k b := by
  induction h with
  | @single b hlink =>
    by_cases ha : a = k
    · subst ha
      exact .inr ⟨.refl, .single hlink⟩
    · exact .inl (.single ((hsame a ha).symm.trans hlink))
  | @tail b c hpath hlink ih =>
    rcases ih with hold | ⟨hto, hfrom⟩
    · by_cases hb : b = k
      · subst hb
        exact .inr ⟨hpath.to_reflTransGen, .single hlink⟩
      · exact .inl (hold.tail ((hsame b hb).symm.trans hlink))
    · exact .inr ⟨hto, hfrom.tail hlink⟩

/-- A cycle after one node was moved was there before, if the new parent does not lead to that node. -/
theorem Returns.of_moved (hsame : ∀ j, j ≠ k → up' j = up j) (hnew : ∀ p, up' k = some p → ¬Leads up p k)
    (h : Returns up' a) : a ≠ k ∧ Returns up a := by
  have hmoved : ¬Relation.TransGen (Link up') k k := by
    intro hcycle
    obtain ⟨p, hlink, hback⟩ := Relation.TransGen.head'_iff.mp hcycle
    exact hnew p hlink (Leads.of_changed hsame hback)
  refine ⟨fun heq => hmoved (heq ▸ h), ?_⟩
  rcases path_cases hsame h with hold | ⟨hto, hfrom⟩
  · exact hold
  · exact absurd (hfrom.trans_left hto) hmoved

end MayAgent.Ancestry
