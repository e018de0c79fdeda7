import Mathlib.Data.List.DropRight
import Mathlib.Data.List.TakeDrop

/-!
# Stripped texts

What is left of a text without the characters of a class at its two ends.
-/

namespace MayAgent

/-- The codes of white space and line terminators: what `trim` removes and `\s` matches. -/
def isSpaceCode (n : ℕ) : Bool :=
  [9, 10, 11, 12, 13, 32, 0xa0, 0x1680, 0x2028, 0x2029, 0x202f, 0x205f, 0x3000, 0xfeff].contains n
    || (0x2000 ≤ n && n ≤ 0x200a)

def isSpace (c : Char) : Bool := isSpaceCode c.toNat

/-- The text without the characters of a class at its two ends. -/
def strip {α : Type*} (p : α → Bool) (cs : List α) : List α := (cs.dropWhile p).rdropWhile p

section Strip

variable {α : Type*} {p : α → Bool}

variable {cs : List α} {c : α}

theorem strip_head (h : (strip p cs).head? = some c) : p c = false := by
  cases hdrop : cs.dropWhile p with
  | nil => simp [strip, hdrop] at h
  | cons d ds =>
    have hd : p d = false := by
      have := List.dropWhile_get_zero_not p cs (by simp [hdrop])
      simpa [hdrop] using this
    obtain ⟨_, hrest⟩ := List.rdropWhile_prefix p (l := d :: ds)
    rw [strip, hdrop] at h
    cases hkept : (d :: ds).rdropWhile p with
    | nil => simp [hkept] at h
    | cons =>
      rw [hkept, List.head?_cons, Option.some.injEq] at h
      rw [hkept, List.cons_append] at hrest
      rw [← h, (List.cons.inj hrest).1]
      exact hd

theorem strip_getLast (h : (strip p cs).getLast? = some c) : p c = false := by
  have hne : (cs.dropWhile p).rdropWhile p ≠ [] := by
    intro hnil
    rw [strip, hnil] at h
    cases h
  have hlast := List.rdropWhile_last_not p (cs.dropWhile p) hne
  rw [strip, List.getLast?_eq_some_getLast hne, Option.some.injEq] at h
  rw [← h]
  simpa using hlast

theorem strip_eq_rdropWhile (hfirst : ∀ c ∈ cs.head?, p c = false) : strip p cs = cs.rdropWhile p := by
  have hfront : cs.dropWhile p = cs := by
    cases cs with
    | nil => rfl
    | cons c => exact List.dropWhile_cons_of_neg (by simp [hfirst c rfl])
  rw [strip, hfront]

theorem strip_eq_self (hfirst : ∀ c ∈ cs.head?, p c = false) (hlast : ∀ c ∈ cs.getLast?, p c = false) :
    strip p cs = cs := by
  rw [strip_eq_rdropWhile hfirst, List.rdropWhile_eq_self_iff]
  intro hne
  rw [hlast _ (List.getLast?_eq_some_getLast hne)]
  exact Bool.false_ne_true

theorem strip_strip (cs : List α) : strip p (strip p cs) = strip p cs :=
  strip_eq_self (fun _ => strip_head) (fun _ => strip_getLast)

theorem prefix_strip {l : List α} (hfirst : ∀ c ∈ l.head?, p c = false) (hlast : ∀ c ∈ l.getLast?, p c = false)
    (hne : l ≠ []) (rest : List α) : l <+: strip p (l ++ rest) := by
  have hfront (more : List α) : ∀ c ∈ (l ++ more).head?, p c = false := by
    rw [List.head?_append_of_ne_nil _ hne]
    exact hfirst
  rw [strip_eq_rdropWhile (hfront rest)]
  induction rest using List.reverseRecOn with
  | nil =>
    rw [List.append_nil, ← strip_eq_rdropWhile hfirst]
    exact (strip_eq_self hfirst hlast).symm ▸ List.prefix_refl l
  | append_singleton _ c ih =>
    rw [← List.append_assoc, List.rdropWhile_concat]
    split
    · exact ih
    · rw [List.append_assoc]
      exact List.prefix_append _ _

end Strip

end MayAgent
