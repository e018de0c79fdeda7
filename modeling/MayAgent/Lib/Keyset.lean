import Mathlib.Data.Finset.Sort
import MayAgent.Lib.Reach

/-!
# Keyset scans

A scan reads the rows that are due page by page, in the order of their keys, and keeps the key of the last row
it read from one pass to the next. Rows become due and stop being due between the passes. The scan is fair if a
row that stays due is visited within a number of passes that depends only on how many rows were due with it.
-/

namespace MayAgent

/-! ### Fair scanners -/

/-- A system some of whose actions are passes over the rows that are due. -/
structure Scanner (σ α κ : Type*) where
  next : σ → α → σ
  due : σ → Finset κ
  visited : σ → α → List κ
  isPass : α → Bool

namespace Scanner

variable {σ α κ : Type*} (S : Scanner σ α κ)

/-- The row is due all along a run of actions that meet `ok`, and no pass of it visits the row. -/
def Waits (ok : σ → α → Prop) (r : κ) : σ → List α → Prop
  | s, [] => r ∈ S.due s
  | s, a :: as => r ∈ S.due s ∧ ok s a ∧ r ∉ S.visited s a ∧ Waits ok r (S.next s a) as

/-- The passes a row waits for are bounded by a function of the number of rows that are due. -/
def Fair (init : σ → Prop) (ok : σ → α → Prop) : Prop :=
  ∃ f : ℕ → ℕ, ∀ s, Reaches init S.next ok s → ∀ r as, S.Waits ok r s as → as.countP S.isPass ≤ f (S.due s).card

/-- In every reachable state with `n` due rows, a row waits for at most `bound` passes. -/
def Bounded (init : σ → Prop) (ok : σ → α → Prop) (n bound : ℕ) : Prop :=
  ∀ s, Reaches init S.next ok s → (S.due s).card = n → ∀ r as, S.Waits ok r s as → as.countP S.isPass ≤ bound

variable {S} {ok : σ → α → Prop} {r : κ}

theorem Fair.bounded {init : σ → Prop} (h : S.Fair init ok) (n : ℕ) : ∃ bound, S.Bounded init ok n bound := by
  obtain ⟨f, hf⟩ := h
  refine ⟨f n, fun s hs hn r as hwaits => ?_⟩
  rw [← hn]
  exact hf s hs r as hwaits

variable {s : σ} {as : List α}

theorem Waits.mem (h : S.Waits ok r s as) : r ∈ S.due s := by
  cases as with
  | nil => exact h
  | cons => exact h.1

theorem Waits.passes_le {I : σ → Prop} {measure : σ → ℕ} (hinv : ∀ s a, I s → ok s a → I (S.next s a))
    (hstep : ∀ s a, I s → ok s a → r ∈ S.due s → r ∈ S.due (S.next s a) → r ∉ S.visited s a →
      measure (S.next s a) + (if S.isPass a then 1 else 0) ≤ measure s) (hs : I s)
    (h : S.Waits ok r s as) : as.countP S.isPass ≤ measure s := by
  induction as generalizing s with
  | nil => exact Nat.zero_le _
  | cons a _ ih =>
    obtain ⟨hdue, hok, hmissed, hrest⟩ := h
    have htail := ih (hinv s a hs hok) hrest
    have hhead := hstep s a hs hok hdue hrest.mem hmissed
    rw [List.countP_cons]
    omega

/-- The fairness rule. -/
theorem fair_of_measure {init : σ → Prop} (I : σ → Prop) (measure : κ → σ → ℕ) (f : ℕ → ℕ) (hinit : ∀ s, init s → I s)
    (hinv : ∀ s a, I s → ok s a → I (S.next s a))
    (hstep : ∀ r s a, I s → ok s a → r ∈ S.due s → r ∈ S.due (S.next s a) → r ∉ S.visited s a →
      measure r (S.next s a) + (if S.isPass a then 1 else 0) ≤ measure r s)
    (hbound : ∀ r s, I s → r ∈ S.due s → measure r s ≤ f (S.due s).card) : S.Fair init ok := by
  refine ⟨f, fun s hreach r as hwaits => ?_⟩
  have hs : I s := Reaches.invariant hinit hinv hreach
  exact (hwaits.passes_le hinv (hstep r) hs).trans (hbound r s hs hwaits.mem)

def Visits (S : Scanner σ α κ) (r : κ) : σ → List α → Prop
  | _, [] => False
  | s, a :: as => r ∈ S.visited s a ∨ Visits S r (S.next s a) as

theorem Visits.exists (h : S.Visits r s as) : ∃ s a, r ∈ S.visited s a := by
  induction as generalizing s with
  | nil => exact h.elim
  | cons a _ ih =>
    rcases h with hvisited | hrest
    · exact ⟨s, a, hvisited⟩
    · exact ih hrest

/-- A measure that no action increases and every pass that misses the row decreases: after more passes the row was
visited. -/
theorem visits_of_measure (measure : σ → ℕ) (hstep : ∀ s a, r ∉ S.visited s a →
    measure (S.next s a) + (if S.isPass a then 1 else 0) ≤ measure s)
    (h : measure s < as.countP S.isPass) : S.Visits r s as := by
  induction as generalizing s with
  | nil => exact absurd h (Nat.not_lt_zero _)
  | cons a _ ih =>
    by_cases hvisited : r ∈ S.visited s a
    · exact .inl hvisited
    · have hhead := hstep s a hvisited
      rw [List.countP_cons] at h
      exact .inr (ih (by omega))

end Scanner

/-! ### Pages -/

namespace Keyset

variable {κ : Type*} [LinearOrder κ]

def ahead (due : Finset κ) (cursor : Option κ) : Finset κ := due.filter fun k => ∀ c ∈ cursor, c < k

def page (due : Finset κ) (cursor : Option κ) (size : ℕ) : List κ := ((ahead due cursor).sort (· ≤ ·)).take size

variable {due due₁ : Finset κ} {cursor cursor' : Option κ} {size : ℕ} {k r : κ}

theorem mem_ahead : k ∈ ahead due cursor ↔ k ∈ due ∧ ∀ c ∈ cursor, c < k := Finset.mem_filter

@[simp]
theorem ahead_none : ahead due none = due := by simp [ahead]

theorem mem_ahead_of_mem_page (h : k ∈ page due cursor size) : k ∈ ahead due cursor :=
  (Finset.mem_sort (· ≤ ·)).mp (List.mem_of_mem_take h)

theorem nodup_page : (page due cursor size).Nodup := (Finset.sort_nodup _ _).sublist (List.take_sublist _ _)

theorem page_eq_nil (hsize : 0 < size) : page due cursor size = [] ↔ ahead due cursor = ∅ := by
  rw [page, List.take_eq_nil_iff, or_iff_right hsize.ne', ← Finset.card_eq_zero, ← Finset.length_sort (· ≤ ·),
    List.length_eq_zero_iff]

theorem full_of_notMem_page (h : r ∈ ahead due cursor) (hnot : r ∉ page due cursor size) :
    (page due cursor size).length = size ∧ ∀ y ∈ page due cursor size, y < r := by
  have hsorted : ((ahead due cursor).sort (· ≤ ·)).Pairwise (· < ·) := Finset.sortedLT_sort _ |>.pairwise
  rw [← List.take_append_drop size ((ahead due cursor).sort (· ≤ ·))] at hsorted
  have hdrop : r ∈ ((ahead due cursor).sort (· ≤ ·)).drop size := by
    have hmem : r ∈ (ahead due cursor).sort (· ≤ ·) := (Finset.mem_sort (· ≤ ·)).mpr h
    rw [← List.take_append_drop size ((ahead due cursor).sort (· ≤ ·)), List.mem_append] at hmem
    exact hmem.resolve_left hnot
  constructor
  · have hlength := List.length_pos_of_mem hdrop
    rw [List.length_drop] at hlength
    rw [page, List.length_take]
    omega
  · intro y hy
    exact (List.pairwise_append.mp hsorted).2.2 y hy r hdrop

theorem le_last_of_mem_page {last : κ} (hlast : (page due cursor size).getLast? = some last) (hk : k ∈ page due cursor size) :
    k ≤ last := by
  have hsorted : (page due cursor size).Pairwise (· ≤ ·) := (Finset.pairwise_sort _ _).sublist (List.take_sublist _ _)
  obtain ⟨front, hfront⟩ : ∃ front, page due cursor size = front ++ [last] :=
    ⟨_, (List.dropLast_append_getLast? last hlast).symm⟩
  rw [hfront] at hsorted hk
  rcases List.mem_append.mp hk with hk | hk
  · exact (List.pairwise_append.mp hsorted).2.2 k hk last List.mem_cons_self
  · exact (List.mem_singleton.mp hk).le

theorem card_ahead_add_length (p : κ → Prop) [DecidablePred p] {last : κ}
    (hlast : (page due cursor size).getLast? = some last) (hp : ∀ y ∈ page due cursor size, p y) :
    ((ahead due (some last)).filter p).card + (page due cursor size).length ≤ ((ahead due cursor).filter p).card := by
  have hmem : last ∈ page due cursor size := List.mem_of_getLast? hlast
  have hle : ∀ y ∈ page due cursor size, y ≤ last := fun y hy => le_last_of_mem_page hlast hy
  have hdisjoint : Disjoint ((ahead due (some last)).filter p) (page due cursor size).toFinset := by
    rw [Finset.disjoint_left]
    intro y hy hpage
    have hlt : last < y := (mem_ahead.mp (Finset.mem_filter.mp hy).1).2 last rfl
    exact absurd (hle y (List.mem_toFinset.mp hpage)) (not_le.mpr hlt)
  have hsubset : (ahead due (some last)).filter p ∪ (page due cursor size).toFinset ⊆ (ahead due cursor).filter p := by
    intro y hy
    rcases Finset.mem_union.mp hy with hy | hy
    · obtain ⟨hy, hpy⟩ := Finset.mem_filter.mp hy
      refine Finset.mem_filter.mpr ⟨mem_ahead.mpr ⟨(mem_ahead.mp hy).1, fun c hc => ?_⟩, hpy⟩
      exact ((mem_ahead.mp (mem_ahead_of_mem_page hmem)).2 c hc).trans ((mem_ahead.mp hy).2 last rfl)
    · exact Finset.mem_filter.mpr ⟨mem_ahead_of_mem_page (List.mem_toFinset.mp hy), hp y (List.mem_toFinset.mp hy)⟩
  have hcard := Finset.card_le_card hsubset
  rwa [Finset.card_union_of_disjoint hdisjoint, List.toFinset_card_of_nodup nodup_page] at hcard

/-! ### Passes -/

/-- Where a pass starts: after the cursor, or at the first row when none is left after the cursor. -/
def start (due : Finset κ) (cursor : Option κ) : Option κ := if ahead due cursor = ∅ then none else cursor

/-- What a pass reads and keeps: a page, and the last row of a full one; or all the rows that are left, and nothing. -/
structure Pass (size : ℕ) (due : Finset κ) (cursor cursor' : Option κ) (rows : List κ) : Prop where
  read : rows = page due (start due cursor) size
  kept : (cursor' = none ∧ ∀ k ∈ ahead due (start due cursor), k ∈ rows) ∨
    ∃ last, cursor' = some last ∧ rows.getLast? = some last ∧ rows.length = size

/-- How many passes a row may wait when up to `budget` more rows become due before the next pass. A row ahead of the
cursor waits for those before it. A row behind it waits until the rows ahead are read, and then for all. -/
def waiting (size budget : ℕ) (due : Finset κ) (cursor : Option κ) (r : κ) : ℕ :=
  if r ∈ ahead due cursor then ((ahead due cursor).filter (· ≤ r)).card + budget
  else size * ((ahead due cursor).card + budget + 1) + due.card + budget

theorem waiting_ahead (h : r ∈ ahead due cursor) (size budget : ℕ) :
    waiting size budget due cursor r = ((ahead due cursor).filter (· ≤ r)).card + budget := if_pos h

theorem waiting_behind (h : r ∉ ahead due cursor) (size budget : ℕ) :
    waiting size budget due cursor r = size * ((ahead due cursor).card + budget + 1) + due.card + budget := if_neg h

theorem Pass.missed_ahead {rows : List κ} (h : Pass size due cursor cursor' rows) (hr : r ∈ ahead due (start due cursor))
    (hnot : r ∉ rows) : r ∈ ahead due cursor' ∧ ((ahead due cursor').filter (· ≤ r)).card + size ≤
      ((ahead due (start due cursor)).filter (· ≤ r)).card := by
  obtain ⟨rfl, ⟨-, hall⟩ | ⟨_, rfl, hlast, hlength⟩⟩ := h
  · exact absurd (hall r hr) hnot
  · obtain ⟨-, hbefore⟩ := full_of_notMem_page hr hnot
    refine ⟨mem_ahead.mpr ⟨(mem_ahead.mp hr).1, fun c hc => ?_⟩, ?_⟩
    · cases hc
      exact hbefore _ (List.mem_of_getLast? hlast)
    · have hcard := card_ahead_add_length (· ≤ r) hlast fun y hy => (hbefore y hy).le
      rwa [hlength] at hcard

/-- A pass that misses a row shortens its waiting, if then less than a page of rows becomes due. -/
theorem Pass.waiting_lt {rows : List κ} (h : Pass size due cursor cursor' rows) (hsize : 0 < size) (hr : r ∈ due)
    (hnot : r ∉ rows) (budget : ℕ) :
    waiting size (size - 1) due cursor' r < waiting size budget due cursor r := by
  have hdue : ∀ c : Option κ, ((ahead due c).filter (· ≤ r)).card ≤ due.card := fun c =>
    Finset.card_le_card ((Finset.filter_subset _ _).trans (Finset.filter_subset _ _))
  by_cases hahead : r ∈ ahead due cursor
  · -- The row is ahead of the cursor: the page was full and before the row.
    have hstart : start due cursor = cursor := if_neg (Finset.ne_empty_of_mem hahead)
    have hmissed := h.missed_ahead (hstart.symm ▸ hahead) hnot
    rw [hstart] at hmissed
    rw [waiting_ahead hahead, waiting_ahead hmissed.1]
    omega
  · rw [waiting_behind hahead]
    have hmul : size ≤ size * ((ahead due cursor).card + budget + 1) := Nat.le_mul_of_pos_right _ (Nat.succ_pos _)
    by_cases hempty : ahead due cursor = ∅
    · -- Nothing was left: the pass started again.
      have hstart : start due cursor = none := if_pos hempty
      have hmissed := h.missed_ahead (by rw [hstart, ahead_none]; exact hr) hnot
      have hcard := hdue (start due cursor)
      rw [waiting_ahead hmissed.1]
      omega
    · have hstart : start due cursor = cursor := if_neg hempty
      obtain ⟨hrows, ⟨rfl, -⟩ | ⟨last, rfl, hlast, hlength⟩⟩ := h
      · -- The rest was read: the next pass starts again.
        have hcard := hdue none
        rw [waiting_ahead (by rw [ahead_none]; exact hr)]
        omega
      · -- A full page was read ahead of the row.
        rw [hrows, hstart] at hlast hlength
        have hcard := card_ahead_add_length (fun _ => True) hlast fun _ _ => trivial
        rw [Finset.filter_true, Finset.filter_true, hlength] at hcard
        have hbehind : r ∉ ahead due (some last) := by
          intro hmem
          apply hahead
          refine mem_ahead.mpr ⟨hr, fun c hc => ?_⟩
          exact ((mem_ahead.mp (mem_ahead_of_mem_page (List.mem_of_getLast? hlast))).2 c hc).trans
            ((mem_ahead.mp hmem).2 last rfl)
        rw [waiting_behind hbehind]
        have hle : size * ((ahead due (some last)).card + (size - 1) + 1) ≤ size * (ahead due cursor).card :=
          Nat.mul_le_mul_left size (by omega)
        have hsplit : size * ((ahead due cursor).card + budget + 1) =
            size * (ahead due cursor).card + size * budget + size := by
          rw [Nat.mul_add, Nat.mul_add, Nat.mul_one]
        omega

theorem card_filter_le (p : κ → Prop) [DecidablePred p] :
    (due₁.filter p).card ≤ (due.filter p).card + (due₁ \ due).card := by
  have hsubset : due₁.filter p ⊆ due.filter p ∪ (due₁ \ due) := by
    intro k hk
    obtain ⟨hk, hpk⟩ := Finset.mem_filter.mp hk
    by_cases hdue : k ∈ due
    · exact Finset.mem_union_left _ (Finset.mem_filter.mpr ⟨hdue, hpk⟩)
    · exact Finset.mem_union_right _ (Finset.mem_sdiff.mpr ⟨hk, hdue⟩)
  exact (Finset.card_le_card hsubset).trans (Finset.card_union_le _ _)

theorem waiting_change (hr : r ∈ due) (hr' : r ∈ due₁) {arrived budget : ℕ} (harrived : (due₁ \ due).card = arrived)
    (hbudget : arrived ≤ budget) : waiting size (budget - arrived) due₁ cursor r ≤ waiting size budget due cursor r := by
  have hahead : (ahead due₁ cursor).card ≤ (ahead due cursor).card + arrived := by
    rw [← harrived]
    exact card_filter_le _
  have hbefore : ((ahead due₁ cursor).filter (· ≤ r)).card ≤ ((ahead due cursor).filter (· ≤ r)).card + arrived := by
    rw [← harrived, ahead, ahead, Finset.filter_filter, Finset.filter_filter]
    exact card_filter_le _
  have hall : due₁.card ≤ due.card + arrived := by
    have hfilter : (due₁.filter fun _ => True).card ≤ (due.filter fun _ => True).card + (due₁ \ due).card :=
      card_filter_le fun _ => True
    rwa [Finset.filter_true, Finset.filter_true, harrived] at hfilter
  by_cases hmem : r ∈ ahead due cursor
  · rw [waiting_ahead hmem, waiting_ahead (mem_ahead.mpr ⟨hr', (mem_ahead.mp hmem).2⟩)]
    omega
  · have hmem' : r ∉ ahead due₁ cursor := fun h => hmem (mem_ahead.mpr ⟨hr, (mem_ahead.mp h).2⟩)
    rw [waiting_behind hmem, waiting_behind hmem']
    have hmul : size * ((ahead due₁ cursor).card + (budget - arrived) + 1) ≤
        size * ((ahead due cursor).card + budget + 1) := Nat.mul_le_mul_left size (by omega)
    omega

theorem waiting_le {budget : ℕ} (hbudget : budget < size) (due : Finset κ) (cursor : Option κ) (r : κ) :
    waiting size budget due cursor r ≤ size * (due.card + size) + due.card + size := by
  have hahead : (ahead due cursor).card ≤ due.card := Finset.card_le_card (Finset.filter_subset _ _)
  have hbefore : ((ahead due cursor).filter (· ≤ r)).card ≤ (ahead due cursor).card :=
    Finset.card_le_card (Finset.filter_subset _ _)
  have hmul : size * ((ahead due cursor).card + budget + 1) ≤ size * (due.card + size) :=
    Nat.mul_le_mul_left size (by omega)
  unfold waiting
  split <;> omega

/-! ### Cycles -/

/-- A page after the cursor, or after the origin when there is none. -/
def cyclePage (size : ℕ) (due : Finset κ) (origin cursor : κ) : List κ :=
  if page due (some cursor) size = [] then page due (some origin) size else page due (some cursor) size

/-- How many passes may miss a row: the pages before it, and before these the pages that are left of the cycle when the
cursor has passed the row. -/
def cycleWait (size : ℕ) (due : Finset κ) (origin cursor r : κ) : ℕ :=
  if cursor < r then ((ahead due (some cursor)).filter (· < r)).card / size
  else ((ahead due (some cursor)).card + size - 1) / size + ((ahead due (some origin)).filter (· < r)).card / size

variable {origin c : κ}

theorem wait_of_missed (hsize : 0 < size) (hr : r ∈ due) (hc : c < r) (hnot : r ∉ page due (some c) size) :
    ∃ last, (page due (some c) size).getLast? = some last ∧ last < r ∧
      ((ahead due (some last)).filter (· < r)).card / size + 1 ≤ ((ahead due (some c)).filter (· < r)).card / size := by
  have hahead : r ∈ ahead due (some c) := mem_ahead.mpr ⟨hr, by simpa using hc⟩
  obtain ⟨hlength, hbefore⟩ := full_of_notMem_page hahead hnot
  obtain ⟨last, hlast⟩ : ∃ last, (page due (some c) size).getLast? = some last := by
    cases hlast : (page due (some c) size).getLast? with
    | some last => exact ⟨last, rfl⟩
    | none =>
      rw [List.getLast?_eq_none_iff.mp hlast] at hlength
      exact absurd hlength hsize.ne
  refine ⟨last, hlast, hbefore last (List.mem_of_getLast? hlast), ?_⟩
  have hcard := card_ahead_add_length (· < r) hlast hbefore
  rw [hlength] at hcard
  rw [← Nat.add_div_right _ hsize]
  exact Nat.div_le_div_right hcard

theorem cycleWait_missed (hsize : 0 < size) (hr : r ∈ due) (horigin : origin < r) (hnot : r ∉ cyclePage size due origin c) :
    cycleWait size due origin ((cyclePage size due origin c).getLast?.getD origin) r + 1 ≤ cycleWait size due origin c r := by
  unfold cyclePage at hnot ⊢
  by_cases hc : c < r
  · -- The row is ahead of the cursor.
    have hahead : r ∈ ahead due (some c) := mem_ahead.mpr ⟨hr, by simpa using hc⟩
    have hpage : page due (some c) size ≠ [] := fun hnil => by
      rw [page_eq_nil hsize] at hnil
      exact absurd hahead (by simp [hnil])
    rw [if_neg hpage] at hnot ⊢
    obtain ⟨last, hlast, hlt, hwait⟩ := wait_of_missed hsize hr hc hnot
    rw [hlast, Option.getD_some, cycleWait, cycleWait, if_pos hlt, if_pos hc]
    exact hwait
  · rw [cycleWait, cycleWait, if_neg hc]
    by_cases hpage : page due (some c) size = []
    · -- The cycle is complete and starts again.
      rw [if_pos hpage] at hnot ⊢
      obtain ⟨last, hlast, hlt, hwait⟩ := wait_of_missed hsize hr horigin hnot
      rw [hlast, Option.getD_some, if_pos hlt]
      exact hwait.trans (Nat.le_add_left _ _)
    · rw [if_neg hpage]
      obtain ⟨last, hlast⟩ : ∃ last, (page due (some c) size).getLast? = some last := by
        cases hlast : (page due (some c) size).getLast? with
        | some last => exact ⟨last, rfl⟩
        | none => exact absurd (List.getLast?_eq_none_iff.mp hlast) hpage
      have hmem := mem_ahead_of_mem_page (List.mem_of_getLast? hlast)
      have hafter : ¬last < r := fun hlt => hc (((mem_ahead.mp hmem).2 c rfl).trans hlt)
      rw [hlast, Option.getD_some, if_neg hafter]
      have hcard := card_ahead_add_length (fun _ => True) hlast fun _ _ => trivial
      rw [Finset.filter_true, Finset.filter_true] at hcard
      have hpages : ((ahead due (some last)).card + size - 1) / size + 1 ≤ ((ahead due (some c)).card + size - 1) / size := by
        by_cases hfull : (page due (some c) size).length = size
        · rw [← Nat.add_div_right _ hsize]
          exact Nat.div_le_div_right (by omega)
        · -- A page that is not full is the last one.
          have hrest : ahead due (some last) = ∅ := by
            rw [Finset.eq_empty_iff_forall_notMem]
            intro k hk
            have hkc : k ∈ ahead due (some c) := mem_ahead.mpr ⟨(mem_ahead.mp hk).1, fun x hx => by
              cases hx
              exact ((mem_ahead.mp hmem).2 _ rfl).trans ((mem_ahead.mp hk).2 last rfl)⟩
            by_cases hkpage : k ∈ page due (some c) size
            · exact absurd ((mem_ahead.mp hk).2 last rfl) (not_lt.mpr (le_last_of_mem_page hlast hkpage))
            · exact hfull (full_of_notMem_page hkc hkpage).1
          have hpos : 0 < (ahead due (some c)).card := Finset.card_pos.mpr ⟨last, hmem⟩
          rw [hrest, Finset.card_empty, Nat.div_eq_of_lt (by omega)]
          exact Nat.div_pos (by omega) hsize
      omega

theorem cycleWait_le (hsize : 0 < size) (hr : r ∈ due) :
    cycleWait size due origin c r ≤ (due.card + size - 1) / size := by
  have hle (a b : ℕ) (h : a + b < due.card) : (a + size - 1) / size + b / size ≤ (due.card + size - 1) / size :=
    Nat.div_add_div_le_add_div.trans (Nat.div_le_div_right (by omega))
  unfold cycleWait
  split
  · have hcard : ((ahead due (some c)).filter (· < r)).card ≤ due.card :=
      Finset.card_le_card ((Finset.filter_subset _ _).trans (Finset.filter_subset _ _))
    exact Nat.div_le_div_right (by omega)
  case isFalse hc =>
    -- The rows after the cursor, those before the row, and the row are all apart.
    apply hle
    have hdisjoint : Disjoint (ahead due (some c)) ((ahead due (some origin)).filter (· < r)) := by
      rw [Finset.disjoint_left]
      intro k hk hk'
      exact hc (((mem_ahead.mp hk).2 c rfl).trans (Finset.mem_filter.mp hk').2)
    rw [← Finset.card_union_of_disjoint hdisjoint]
    apply Finset.card_lt_card
    rw [Finset.ssubset_iff_of_subset]
    · refine ⟨r, hr, fun hmem => ?_⟩
      rcases Finset.mem_union.mp hmem with hmem | hmem
      · exact hc ((mem_ahead.mp hmem).2 c rfl)
      · exact lt_irrefl r (Finset.mem_filter.mp hmem).2
    · refine Finset.union_subset (Finset.filter_subset _ _) ((Finset.filter_subset _ _).trans (Finset.filter_subset _ _))

end Keyset

end MayAgent
