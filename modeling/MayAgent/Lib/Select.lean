import Mathlib.Data.List.Basic
import Mathlib.Data.List.Nodup
import Mathlib.Data.List.Perm.Subperm

/-!
# Selecting from a list

The loop that keeps the maximum, and the split of a list by a bounded selection of its positions.
-/

namespace MayAgent

variable {α : Type*}

/-- The rule of a loop over a list: what holds of the entries passed so far. -/
theorem foldl_passed {β : Type*} {f : β → α → β} {P : List α → β → Prop} {l : List α} {b : β} (hstart : P [] b)
    (hstep : ∀ passed x rest acc, l = passed ++ x :: rest → P passed acc → P (passed ++ [x]) (f acc x)) :
    P l (l.foldl f b) := by
  have hloop : ∀ rest passed acc, l = passed ++ rest → P passed acc → P l (rest.foldl f acc) := by
    intro rest
    induction rest with
    | nil =>
      intro passed acc hl hP
      rw [hl, List.append_nil]
      exact hP
    | cons x rest ih =>
      intro passed acc hl hP
      exact ih (passed ++ [x]) (f acc x) (by simp [hl]) (hstep passed x rest acc hl hP)
  exact hloop l [] b rfl hstart

theorem le_foldl_max {l : List Nat} {a : Nat} (h : a ∈ l) (n : Nat) : a ≤ l.foldl max n := by
  refine foldl_passed (P := fun passed acc => ∀ x ∈ passed, x ≤ acc) nofun (fun passed x rest acc _ hacc y hy => ?_) a h
  rcases List.mem_append.mp hy with hy | hy
  · exact Nat.le_trans (hacc y hy) (Nat.le_max_left acc x)
  · rw [List.mem_singleton.mp hy]
    exact Nat.le_max_right acc x

/-! ### Positions -/

/-- The entries of a list at the given positions, in the order of the list. -/
def atPositions (l : List α) (positions : List Nat) : List α :=
  (l.zipIdx.filter fun e => positions.contains e.2).map Prod.fst

def offPositions (l : List α) (positions : List Nat) : List α :=
  (l.zipIdx.filter fun e => !positions.contains e.2).map Prod.fst

section Positions

variable {l : List α} {positions : List Nat} {a : α}

theorem atPositions_sublist (l : List α) (positions : List Nat) : (atPositions l positions).Sublist l := by
  have hsub : (atPositions l positions).Sublist (l.zipIdx.map Prod.fst) := List.filter_sublist.map Prod.fst
  rwa [List.zipIdx_map_fst] at hsub

theorem offPositions_sublist (l : List α) (positions : List Nat) : (offPositions l positions).Sublist l := by
  have hsub : (offPositions l positions).Sublist (l.zipIdx.map Prod.fst) := List.filter_sublist.map Prod.fst
  rwa [List.zipIdx_map_fst] at hsub

theorem atPositions_append_perm (l : List α) (positions : List Nat) :
    (atPositions l positions ++ offPositions l positions).Perm l := by
  have hperm := (List.filter_append_perm (fun e => positions.contains e.2) l.zipIdx).map Prod.fst
  rwa [List.map_append, List.zipIdx_map_fst] at hperm

theorem mem_atPositions : a ∈ atPositions l positions ↔ ∃ i ∈ positions, l[i]? = some a := by
  simp only [atPositions, List.mem_map, List.mem_filter, List.contains_iff_mem, Prod.exists, exists_and_right,
    exists_eq_right, List.mk_mem_zipIdx_iff_getElem?]
  exact ⟨fun ⟨i, hi, hmem⟩ => ⟨i, hmem, hi⟩, fun ⟨i, hmem, hi⟩ => ⟨i, hi, hmem⟩⟩

theorem mem_offPositions : a ∈ offPositions l positions ↔ ∃ i, i ∉ positions ∧ l[i]? = some a := by
  simp only [offPositions, List.mem_map, List.mem_filter, Bool.not_eq_true', Prod.exists, exists_and_right,
    exists_eq_right, List.mk_mem_zipIdx_iff_getElem?]
  constructor
  · rintro ⟨i, hi, hnot⟩
    exact ⟨i, by simpa using hnot, hi⟩
  · rintro ⟨i, hnot, hi⟩
    exact ⟨i, hi, by simpa using hnot⟩

theorem length_atPositions_le (l : List α) (positions : List Nat) :
    (atPositions l positions).length ≤ positions.length := by
  have hnodup : ((l.zipIdx.filter fun e => positions.contains e.2).map Prod.snd).Nodup := by
    have hsub : ((l.zipIdx.filter fun e => positions.contains e.2).map Prod.snd).Sublist (l.zipIdx.map Prod.snd) :=
      List.filter_sublist.map Prod.snd
    rw [List.zipIdx_map_snd] at hsub
    exact hsub.nodup (List.nodup_range')
  have hsubset : (l.zipIdx.filter fun e => positions.contains e.2).map Prod.snd ⊆ positions := by
    intro i hi
    obtain ⟨e, he, rfl⟩ := List.mem_map.mp hi
    simpa using (List.mem_filter.mp he).2
  have hle := (hnodup.subperm hsubset).length_le
  rw [List.length_map] at hle
  rw [atPositions, List.length_map]
  exact hle

theorem offPositions_eq_nil (h : ∀ i < l.length, i ∈ positions) : offPositions l positions = [] := by
  rw [List.eq_nil_iff_forall_not_mem]
  intro a ha
  obtain ⟨i, hnot, hi⟩ := mem_offPositions.mp ha
  obtain ⟨hlt, -⟩ := List.getElem?_eq_some_iff.mp hi
  exact hnot (h i hlt)

end Positions

/-! ### A bounded selection -/

/-- The positions of a list, those with `p` first. -/
def positionsFirst (p : α → Bool) (l : List α) : List Nat :=
  ((l.zipIdx.filter fun e => p e.1) ++ l.zipIdx.filter fun e => !p e.1).map Prod.snd

/-- The first `n` positions of an order. One that has to be selected replaces the last of them. -/
def boundedSelection (order : List Nat) (n : Nat) (must : Option Nat) : List Nat :=
  match must with
  | none => order.take n
  | some i =>
    if (order.take n).contains i then order.take n
    else (if n ≤ (order.take n).length then (order.take n).dropLast else order.take n) ++ [i]

section Selection

variable {p : α → Bool} {l : List α} {order first second : List Nat} {n i j : Nat} {must : Option Nat}

theorem mem_positionsFirst (p : α → Bool) (l : List α) : i ∈ positionsFirst p l ↔ i < l.length := by
  simp only [positionsFirst, List.mem_map, List.mem_append, List.mem_filter, Prod.exists, exists_eq_right,
    List.mk_mem_zipIdx_iff_getElem?]
  constructor
  · rintro ⟨a, ⟨hi, -⟩ | ⟨hi, -⟩⟩ <;> exact (List.getElem?_eq_some_iff.mp hi).1
  · intro hlt
    refine ⟨l[i], ?_⟩
    rw [List.getElem?_eq_getElem hlt]
    cases p l[i] <;> simp

theorem length_positionsFirst (p : α → Bool) (l : List α) : (positionsFirst p l).length = l.length := by
  rw [positionsFirst, List.length_map, (List.filter_append_perm (fun e => p e.1) l.zipIdx).length_eq, List.length_zipIdx]

theorem boundedSelection_length_le (order : List Nat) (hn : 0 < n) (must : Option Nat) :
    (boundedSelection order n must).length ≤ n := by
  have htake : (order.take n).length ≤ n := List.length_take_le n order
  unfold boundedSelection
  split
  · exact htake
  · split_ifs with hmem hfull
    · exact htake
    · rw [List.length_append, List.length_dropLast, List.length_singleton]
      omega
    · rw [List.length_append, List.length_singleton]
      omega

theorem mem_boundedSelection_must (h : must = some i) : i ∈ boundedSelection order n must := by
  subst h
  unfold boundedSelection
  dsimp only
  split_ifs with hmem
  · simpa using hmem
  · simp
  · simp

theorem boundedSelection_eq (hlength : order.length ≤ n) (hmust : ∀ i, must = some i → i ∈ order) :
    boundedSelection order n must = order := by
  have htake : order.take n = order := List.take_of_length_le hlength
  unfold boundedSelection
  split
  · exact htake
  · rename_i i
    rw [htake, if_pos (by simpa using hmust i rfl)]

theorem mem_take_of_notMem (hi : i ∈ first) (hnot : i ∉ (first ++ second).take n) (hj : j ∈ (first ++ second).take n) :
    j ∈ first := by
  have hlt : n < first.length := by
    by_contra hle
    rw [List.take_append, List.take_of_length_le (Nat.not_lt.mp hle)] at hnot
    exact hnot (List.mem_append_left _ hi)
  rw [List.take_append_of_le_length (Nat.le_of_lt hlt)] at hj
  exact List.mem_of_mem_take hj

/-- A selection that leaves out a position of the first part has no position of the second. -/
theorem boundedSelection_first (hmust : ∀ i, must = some i → i ∈ first) (hi : i ∈ first)
    (hnot : i ∉ boundedSelection (first ++ second) n must) (hj : j ∈ boundedSelection (first ++ second) n must) :
    j ∈ first := by
  unfold boundedSelection at hnot hj
  split at hj
  · exact mem_take_of_notMem hi hnot hj
  · rename_i c
    have hc := hmust c rfl
    dsimp only at hnot
    split_ifs at hnot hj with hmem hfull
    · exact mem_take_of_notMem hi hnot hj
    · rw [List.contains_iff_mem] at hmem
      rcases List.mem_append.mp hj with hj | hj
      · exact mem_take_of_notMem hc hmem ((List.dropLast_sublist _).subset hj)
      · rw [List.mem_singleton.mp hj]
        exact hc
    · rw [List.contains_iff_mem] at hmem
      rcases List.mem_append.mp hj with hj | hj
      · exact mem_take_of_notMem hc hmem hj
      · rw [List.mem_singleton.mp hj]
        exact hc

end Selection

end MayAgent
