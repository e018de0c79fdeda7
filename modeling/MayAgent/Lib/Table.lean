import Mathlib.Data.List.AList

/-!
# Keyed tables

Finite maps with an enumerable content: the rows of a database table under their primary key, or
the entries of a record. They are Mathlib's association lists at a constant value type; this file
adds the selections and bulk updates a store needs, each with its effect on `lookup`.
-/

namespace MayAgent

/-- Rows of type `α` under a primary key of type `κ`. -/
abbrev Table (κ α : Type*) := AList (fun _ : κ => α)

namespace Table

variable {κ α β : Type*} [DecidableEq κ]

/-- `lookup` with the table first. -/
def get (t : Table κ α) (k : κ) : Option α := t.lookup k

/-- Inserts or overwrites the row of `k`. -/
def put (t : Table κ α) (k : κ) (v : α) : Table κ α := t.insert k v

/-- Deletes the row of `k`. -/
def drop (t : Table κ α) (k : κ) : Table κ α := t.erase k

/-- Writes or deletes the row of `k`. -/
def set (t : Table κ α) (k : κ) : Option α → Table κ α
  | some v => t.put k v
  | none => t.drop k

def has (t : Table κ α) (k : κ) : Bool := (t.get k).isSome

def values (t : Table κ α) : List α := t.entries.map Sigma.snd

/-- The rows that satisfy `p`. -/
def filter (t : Table κ α) (p : κ → α → Bool) : Table κ α :=
  ⟨t.entries.filter fun e => p e.1 e.2, List.NodupKeys.sublist List.filter_sublist t.nodupKeys⟩

/-- Selects and rewrites rows. -/
def filterMapVal (t : Table κ α) (f : κ → α → Option β) : Table κ β :=
  ⟨t.entries.filterMap fun e => (f e.1 e.2).map (Sigma.mk e.1), by
    have h := t.nodupKeys
    rw [List.nodupKeys_iff_pairwise] at h ⊢
    refine List.Pairwise.filterMap _ ?_ h
    rintro e e' hne a ha b hb
    simp only [Option.map_eq_some_iff] at ha hb
    obtain ⟨v, -, rfl⟩ := ha
    obtain ⟨_, -, rfl⟩ := hb
    exact hne⟩

/-- Inserts rows one after the other under the key each of them carries. -/
def putAll (t : Table κ α) (key : α → κ) (rows : List α) : Table κ α :=
  rows.foldl (fun t v => t.put (key v) v) t

def dropAll (t : Table κ α) (ks : List κ) : Table κ α := ks.foldl drop t

@[simp]
theorem get_empty (k : κ) : (∅ : Table κ α).get k = none := AList.lookup_empty k

variable (t : Table κ α)

@[simp]
theorem get_put_self (k : κ) (v : α) : (t.put k v).get k = some v :=
  AList.lookup_insert t

theorem get_put_ne {k k' : κ} (v : α) (h : k' ≠ k) :
    (t.put k v).get k' = t.get k' :=
  AList.lookup_insert_ne h

theorem get_put (k k' : κ) (v : α) :
    (t.put k v).get k' = if k' = k then some v else t.get k' := by
  by_cases h : k' = k
  · subst h
    simp
  · rw [get_put_ne t v h, if_neg h]

@[simp]
theorem put_put (k : κ) (v w : α) : (t.put k v).put k w = t.put k w := AList.insert_insert t

@[simp]
theorem get_drop_self (k : κ) : (t.drop k).get k = none :=
  AList.lookup_erase k t

theorem get_drop_ne {k k' : κ} (h : k' ≠ k) : (t.drop k).get k' = t.get k' :=
  AList.lookup_erase_ne h

theorem get_drop (k k' : κ) :
    (t.drop k).get k' = if k' = k then none else t.get k' := by
  by_cases h : k' = k
  · subst h
    simp
  · rw [get_drop_ne t h, if_neg h]

theorem get_set (k k' : κ) (v : Option α) :
    (t.set k v).get k' = if k' = k then v else t.get k' := by
  cases v with
  | none => exact get_drop t k k'
  | some v => exact get_put t k k' v

@[simp]
theorem get_set_self (k : κ) (v : Option α) : (t.set k v).get k = v := by
  rw [get_set, if_pos rfl]

theorem get_eq_some_iff (k : κ) (v : α) :
    t.get k = some v ↔ (⟨k, v⟩ : Sigma fun _ : κ => α) ∈ t.entries :=
  AList.mem_lookup_iff

theorem mem_values_iff (v : α) : v ∈ t.values ↔ ∃ k, t.get k = some v := by
  simp only [values, List.mem_map, get_eq_some_iff]
  constructor
  · rintro ⟨⟨k, w⟩, hmem, rfl⟩
    exact ⟨k, hmem⟩
  · rintro ⟨k, hmem⟩
    exact ⟨⟨k, v⟩, hmem, rfl⟩

theorem nodup_map_values (key : α → κ) (hkey : ∀ k v, t.get k = some v → key v = k) :
    (t.values.map key).Nodup := by
  have hkeys : t.values.map key = t.entries.map Sigma.fst := by
    rw [values, List.map_map]
    apply List.map_congr_left
    rintro ⟨k, v⟩ hmem
    exact hkey k v ((t.get_eq_some_iff k v).mpr hmem)
  rw [hkeys]
  exact t.nodupKeys

theorem get_filter_eq_some_iff (p : κ → α → Bool) (k : κ) (v : α) :
    (t.filter p).get k = some v ↔ t.get k = some v ∧ p k v = true := by
  simp only [get_eq_some_iff, filter, List.mem_filter]

theorem get_filter (p : κ → α → Bool) (k : κ) :
    (t.filter p).get k = (t.get k).filter (p k) := by
  apply Option.ext
  intro v
  rw [get_filter_eq_some_iff, Option.filter_eq_some_iff]

theorem get_filterMapVal (f : κ → α → Option β) (k : κ) :
    (t.filterMapVal f).get k = (t.get k).bind (f k) := by
  apply Option.ext
  intro w
  rw [get_eq_some_iff, Option.bind_eq_some_iff]
  simp only [filterMapVal, List.mem_filterMap, Option.map_eq_some_iff, get_eq_some_iff]
  constructor
  · rintro ⟨⟨_, v⟩, hmem, _, hw, heq⟩
    cases heq
    exact ⟨v, hmem, hw⟩
  · rintro ⟨v, hmem, hw⟩
    exact ⟨⟨k, v⟩, hmem, w, hw, rfl⟩

@[simp]
theorem putAll_nil (key : α → κ) : t.putAll key [] = t := rfl

@[simp]
theorem putAll_cons (key : α → κ) (v : α) (rows : List α) :
    t.putAll key (v :: rows) = (t.put (key v) v).putAll key rows := rfl

/-- A bulk insertion leaves a row untouched or replaces it by one of the inserted rows. -/
theorem get_putAll_cases (key : α → κ) (rows : List α) (k : κ) :
    (∃ v ∈ rows, key v = k ∧ (t.putAll key rows).get k = some v) ∨
      ((∀ v ∈ rows, key v ≠ k) ∧ (t.putAll key rows).get k = t.get k) := by
  induction rows generalizing t with
  | nil => exact Or.inr ⟨by simp, rfl⟩
  | cons v _ ih =>
    rw [putAll_cons]
    rcases ih (t.put (key v) v) with ⟨w, hw, hkey, hget⟩ | ⟨hne, hget⟩
    · exact Or.inl ⟨w, List.mem_cons_of_mem v hw, hkey, hget⟩
    · by_cases hk : key v = k
      · subst hk
        exact Or.inl ⟨v, List.mem_cons_self, rfl, by rw [hget, get_put_self]⟩
      · refine Or.inr ⟨?_, by rw [hget, get_put_ne t v (Ne.symm hk)]⟩
        intro w hw
        rcases List.mem_cons.mp hw with rfl | hw
        · exact hk
        · exact hne w hw

theorem get_putAll_of_mem (key : α → κ) (rows : List α) {v : α} (hv : v ∈ rows)
    (huniq : ∀ w ∈ rows, key w = key v → w = v) : (t.putAll key rows).get (key v) = some v := by
  rcases get_putAll_cases t key rows (key v) with ⟨w, hw, hkey, hget⟩ | ⟨hne, -⟩
  · rw [hget, huniq w hw hkey]
  · exact absurd rfl (hne v hv)

theorem get_foldl_put_cases (rows : List (κ × α)) (k : κ) :
    (∃ v, (k, v) ∈ rows ∧ (rows.foldl (fun t e => t.put e.1 e.2) t).get k = some v) ∨
      ((∀ v, (k, v) ∉ rows) ∧ (rows.foldl (fun t e => t.put e.1 e.2) t).get k = t.get k) := by
  induction rows generalizing t with
  | nil => exact Or.inr ⟨by simp, rfl⟩
  | cons e _ ih =>
    rw [List.foldl_cons]
    rcases ih (t.put e.1 e.2) with ⟨v, hv, hget⟩ | ⟨hnot, hget⟩
    · exact Or.inl ⟨v, List.mem_cons_of_mem e hv, hget⟩
    · by_cases hk : k = e.1
      · subst hk
        exact Or.inl ⟨e.2, List.mem_cons_self, by rw [hget, get_put_self]⟩
      · refine Or.inr ⟨fun v hv => ?_, by rw [hget, get_put_ne t e.2 hk]⟩
        rcases List.mem_cons.mp hv with heq | hv
        · exact hk (congrArg Prod.fst heq)
        · exact hnot v hv

theorem get_dropAll (ks : List κ) (k : κ) :
    (t.dropAll ks).get k = if k ∈ ks then none else t.get k := by
  induction ks generalizing t with
  | nil => simp [dropAll]
  | cons k' ks ih =>
    change ((t.drop k').dropAll ks).get k = _
    rw [ih, get_drop]
    by_cases hk : k = k'
    · simp [hk]
    · simp [hk]

/-! ### Counting rows -/

/-- The number of rows that satisfy `p`. -/
def count (t : Table κ α) (p : α → Bool) : Nat := t.values.countP p

theorem count_put (p : α → Bool) (k : κ) (v : α) :
    (t.put k v).count p + (if (t.get k).any p then 1 else 0) = t.count p + if p v then 1 else 0 := by
  have hput : (t.put k v).entries = ⟨k, v⟩ :: t.entries.kerase k := rfl
  simp only [count, values, hput, List.map_cons, List.countP_cons]
  by_cases hk : k ∈ t.entries.keys
  · obtain ⟨w, _, _, -, hentries, hkerase⟩ := List.exists_of_kerase hk
    have hget : t.get k = some w := (get_eq_some_iff t k w).mpr (by rw [hentries]; simp)
    rw [hkerase, hentries, hget]
    simp only [List.map_append, List.map_cons, List.countP_append, List.countP_cons, Option.any_some]
    omega
  · have hget : t.get k = none := AList.lookup_eq_none.mpr hk
    rw [List.kerase_of_notMem_keys hk, hget]
    simp

theorem count_put_le (p : α → Bool) (k : κ) (v : α) :
    (t.put k v).count p ≤ t.count p + if p v && !(t.get k).any p then 1 else 0 := by
  have hput := count_put t p k v
  by_cases hv : p v = true <;> by_cases hw : (t.get k).any p = true <;> simp [hv, hw] at hput ⊢ <;> omega

/-- If rows that count are replaced only by rows that count, a bulk insertion adds at most the rows
that count where none did. -/
theorem count_putAll_le (p : α → Bool) (key : α → κ) (rows : List α)
    (hkeep : ∀ v ∈ rows, (t.get (key v)).any p = true → p v = true)
    (hsame : ∀ v ∈ rows, ∀ w ∈ rows, key v = key w → p v = p w) :
    (t.putAll key rows).count p ≤ t.count p + rows.countP fun v => p v && !(t.get (key v)).any p := by
  induction rows generalizing t with
  | nil => simp
  | cons v rows ih =>
    -- For the remaining rows the first one counts as much as the row it replaced, or as they do.
    have hget : ∀ w ∈ rows, ((t.put (key v) v).get (key w)).any p = (t.get (key w)).any p ∨
        ((t.put (key v) v).get (key w)).any p = p w := by
      intro w hw
      by_cases hkey : key w = key v
      · rw [hkey, get_put_self]
        exact .inr (hsame v List.mem_cons_self w (List.mem_cons_of_mem v hw) hkey.symm)
      · rw [get_put_ne t v hkey]
        exact .inl rfl
    have hrest := ih (t.put (key v) v)
      (fun w hw hold => (hget w hw).elim (fun h => hkeep w (List.mem_cons_of_mem v hw) (h ▸ hold)) fun h => h ▸ hold)
      (fun w hw w' hw' => hsame w (List.mem_cons_of_mem v hw) w' (List.mem_cons_of_mem v hw'))
    have hcount : (rows.countP fun w => p w && !((t.put (key v) v).get (key w)).any p)
        ≤ rows.countP fun w => p w && !(t.get (key w)).any p := by
      refine List.countP_mono_left fun w hw hflips => ?_
      rcases hget w hw with h | h
      · rwa [h] at hflips
      · rw [h] at hflips
        simp at hflips
    have hput := count_put_le t p (key v) v
    rw [putAll_cons, List.countP_cons]
    omega

end Table

end MayAgent
