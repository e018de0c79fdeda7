import Mathlib.Data.Set.Function
import Mathlib.Tactic.IntervalCases
import MayAgent.Host.References

/-!
# A shown reference keeps its Task

A reference is shown with as many characters as tell the Task apart from all others in the index, and the index only
grows: what was shown may become ambiguous, but the Task stays among the candidates. This needs the digest that is
entered to be the one that is shown. The entry is made from ids that are brought into their canonical form before the
digest does so once more, and the second time changes an App id with white space in front of its suffix.
-/

namespace MayAgent

namespace References

/-! ### What is hashed -/

theorem colon_not_mem_digits (n : ℕ) : ':' ∉ Nat.toDigits 10 n := by
  intro h
  have hdigit := Nat.isDigit_of_mem_toDigits (by decide) (by decide) h
  revert hdigit
  decide

theorem lengthSafe_append_inj {s s' r r' : Text} (h : lengthSafe s ++ r = lengthSafe s' ++ r') : s = s' ∧ r = r' := by
  rw [lengthSafe, lengthSafe, List.append_assoc, List.append_assoc, List.cons_append, List.cons_append] at h
  obtain ⟨hdigits, hrest⟩ := append_cons_inj (colon_not_mem_digits _) (colon_not_mem_digits _) h
  refine append_inj_of_size Char.utf8Size_pos ?_ hrest
  rw [← @Nat.ofDigitChars_ten_toDigits (s.map Char.utf8Size).sum, hdigits, Nat.ofDigitChars_ten_toDigits]

variable {appId : Text}

theorem referenceText_inj {appId' taskId taskId' : Text}
    (h : referenceText appId taskId = referenceText appId' taskId') : appId = appId' ∧ taskId = taskId' := by
  rw [referenceText, referenceText] at h
  obtain ⟨happ, htask⟩ := lengthSafe_append_inj (List.cons.inj (List.append_cancel_left h)).2
  have htask' := (List.cons.inj htask).2
  rw [← List.append_nil (lengthSafe taskId), ← List.append_nil (lengthSafe taskId')] at htask'
  exact ⟨happ, (lengthSafe_append_inj htask').1⟩

/-! ### Canonical ids -/

theorem stripApp_prefix (s : Text) : stripApp s <+: s := by
  rw [stripApp]
  split
  · exact List.take_prefix _ s
  · exact List.prefix_refl s

theorem canonicalAppId_head {c : Char} (h : (canonicalAppId appId).head? = some c) : isSpace c = false := by
  obtain ⟨rest, hrest⟩ := stripApp_prefix (trim appId)
  have hhead : (trim appId).head? = some c := by
    rw [← hrest, List.head?_append]
    change (canonicalAppId appId).head?.or rest.head? = some c
    rw [h, Option.some_or]
  exact strip_head hhead

/-- App ids that are canonical after one pass: no white space and no suffix is left at the end. The ids are joined by a
character they do not contain. -/
structure Plain (appId : Text) : Prop where
  single : ¬ appSuffix <:+ canonicalAppId appId
  tight : ∀ c ∈ (canonicalAppId appId).getLast?, isSpace c = false
  solid : nul ∉ appId

theorem Plain.canonicalAppId_idem (h : Plain appId) :
    canonicalAppId (canonicalAppId appId) = canonicalAppId appId := by
  have htrim : trim (canonicalAppId appId) = canonicalAppId appId :=
    strip_eq_self (fun c hc => canonicalAppId_head hc) h.tight
  rw [canonicalAppId, htrim, stripApp, if_neg h.single]

theorem canonicalTaskId_idem (taskId : Text) : canonicalTaskId (canonicalTaskId taskId) = canonicalTaskId taskId :=
  strip_strip taskId

namespace Identity

def Named (i : Identity) : Prop := canonicalAppId i.appId ≠ [] ∧ canonicalTaskId i.taskId ≠ []

def text (i : Identity) : Text := referenceText (canonicalAppId i.appId) (canonicalTaskId i.taskId)

def resolved (sha256 : Text → Text) (i : Identity) : Resolved :=
  ⟨canonicalAppId i.appId, canonicalTaskId i.taskId, sha256 i.text⟩

def Same (i j : Identity) : Prop :=
  canonicalAppId i.appId = canonicalAppId j.appId ∧ canonicalTaskId i.taskId = canonicalTaskId j.taskId

theorem key_inj {i j : Identity} (hi : Plain i.appId) (hj : Plain j.appId) (h : i.key = j.key) : i = j := by
  obtain ⟨happ, htask⟩ := append_cons_inj hi.solid hj.solid h
  cases i
  cases j
  rw [Identity.mk.injEq]
  exact ⟨happ, htask⟩

end Identity

/-! ### Lookup -/

section Lookup

variable {c : Char}

theorem code_of_isHex (h : isHex c = true) : 48 ≤ c.toNat ∧ c.toNat ≤ 57 ∨ 97 ≤ c.toNat ∧ c.toNat ≤ 102 := by
  rw [isHex, Bool.or_eq_true, Bool.and_eq_true, decide_eq_true_eq, decide_eq_true_eq] at h
  obtain hdigit | ⟨hlow, hhigh⟩ := h
  · rw [Char.isDigit, Bool.and_eq_true, decide_eq_true_eq, decide_eq_true_eq] at hdigit
    exact .inl hdigit
  · exact .inr ⟨hlow, hhigh⟩

theorem isSpace_of_isHex (h : isHex c = true) : isSpace c = false := by
  have hcode := code_of_isHex h
  rw [isSpace]
  generalize c.toNat = n at hcode
  obtain ⟨hlow, hhigh⟩ | ⟨hlow, hhigh⟩ := hcode <;> interval_cases n <;> rfl

theorem toLower_of_isHex (h : isHex c = true) : c.toLower = c := by
  have hcode := code_of_isHex h
  delta Char.toLower
  rw [dif_neg]
  rintro ⟨hlow, hhigh⟩
  have hlow : 65 ≤ c.toNat := hlow
  have hhigh : c.toNat ≤ 90 := hhigh
  omega

theorem normal_of_isHex {ref : Text} (h : ∀ c ∈ ref, isHex c = true) : (trim ref).map Char.toLower = ref := by
  have htrim : trim ref = ref :=
    strip_eq_self (fun c hc => isSpace_of_isHex (h c (List.mem_of_mem_head? hc)))
      (fun c hc => isSpace_of_isHex (h c (List.mem_of_getLast? hc)))
  rw [htrim]
  exact (List.map_congr_left fun c hc => toLower_of_isHex (h c hc)).trans (List.map_id ref)

/-- The rows that a reference is looked up to. -/
def matching (rows : List Row) (ref : Text) : List Row := rows.filter fun r => r.column ref.length = ref

def Row.resolved (r : Row) : Resolved := ⟨r.appId, r.taskId, r.digest⟩

/-- A text of hexadecimal digits, of one of the three lengths. -/
def Valid (ref : Text) : Prop := (∀ c ∈ ref, isHex c = true) ∧ (ref.length = 8 ∨ ref.length = 16 ∨ ref.length = 64)

variable {rows : List Row} {ref : Text}

theorem resolve_of_valid (hrows : ∀ r ∈ rows, r.candidate? = some r.resolved) (href : Valid ref) :
    resolveTaskReference rows ref =
      match (((matching rows ref).insertionSort Before).take 11).map Row.resolved with
      | [] => .ok .missing
      | [task] => .ok (.resolved task)
      | candidates => .ok (.ambiguous candidates) := by
  have hcandidates : (((matching rows ref).insertionSort Before).take 11).filterMap Row.candidate? =
      (((matching rows ref).insertionSort Before).take 11).map Row.resolved := by
    rw [← List.filterMap_eq_map]
    refine List.filterMap_congr fun r hr => ?_
    rw [Function.comp_apply]
    exact hrows r (List.mem_of_mem_filter ((List.mem_insertionSort _).mp (List.mem_of_mem_take hr)))
  rw [resolveTaskReference, normal_of_isHex href.1]
  dsimp only
  rw [if_neg (not_not.mpr ⟨List.all_eq_true.mpr href.1, href.2⟩)]
  rw [← hcandidates]
  rfl

theorem resolve_of_single (hrows : ∀ r ∈ rows, r.candidate? = some r.resolved) (href : Valid ref) {r : Row}
    (hr : matching rows ref = [r]) : resolveTaskReference rows ref = .ok (.resolved r.resolved) := by
  rw [resolve_of_valid hrows href, hr]
  rfl

theorem resolve_of_mem (hrows : ∀ r ∈ rows, r.candidate? = some r.resolved) (href : Valid ref) {r : Row}
    (hr : r ∈ matching rows ref) : resolveTaskReference rows ref = .ok (.resolved r.resolved) ∨
      ∃ candidates, resolveTaskReference rows ref = .ok (.ambiguous candidates) := by
  rw [resolve_of_valid hrows href]
  have hperm := List.perm_insertionSort Before (matching rows ref)
  match hfound : (matching rows ref).insertionSort Before with
  | [] =>
    rw [hfound] at hperm
    rw [List.nil_perm.mp hperm] at hr
    cases hr
  | [r'] =>
    rw [hfound] at hperm
    rw [← List.singleton_perm.mp hperm, List.mem_singleton] at hr
    exact .inl (by rw [hr]; rfl)
  | a :: b :: rest => exact .inr ⟨_, rfl⟩

end Lookup

/-! ### The index -/

section Index

variable {sha256 : Text → Text} {texts : Set Text}

/-- A hash is a text of 64 hexadecimal digits. -/
structure HexDigest (sha256 : Text → Text) : Prop where
  length : ∀ text, (sha256 text).length = 64
  hex : ∀ text, ∀ c ∈ sha256 text, isHex c = true

/-- A row of the index: its columns follow from its ids. -/
structure RowSound (sha256 : Text → Text) (texts : Set Text) (r : Row) : Prop where
  digest : r.digest = sha256 (referenceText r.appId r.taskId)
  prefix8 : r.prefix8 = r.digest.take 8
  prefix16 : r.prefix16 = r.digest.take 16
  app : r.appId ≠ []
  task : r.taskId ≠ []
  text : referenceText r.appId r.taskId ∈ texts

structure IndexSound (sha256 : Text → Text) (texts : Set Text) (index : Index) : Prop where
  rows : ∀ r ∈ index.rows, RowSound sha256 texts r
  distinct : (index.rows.map Row.digest).Nodup
  entered : ∀ i ∈ index.indexed, ∃ r ∈ index.rows, r.appId = canonicalAppId i.appId ∧ r.taskId = canonicalTaskId i.taskId

/-- The condition on a call; `texts` are all that is hashed. -/
def Admitted (texts : Set Text) (i : Identity) : Prop := Plain i.appId ∧ i.text ∈ texts

def Identity.row (sha256 : Text → Text) (i : Identity) : Row :=
  ⟨sha256 i.text, (sha256 i.text).take 8, (sha256 i.text).take 16, canonicalAppId i.appId, canonicalTaskId i.taskId⟩

theorem RowSound.candidate (hsha : HexDigest sha256) {r : Row} (h : RowSound sha256 texts r) :
    r.candidate? = some r.resolved := by
  have hdigest : r.digest ≠ [] := by
    intro hnil
    have hlength := hsha.length (referenceText r.appId r.taskId)
    rw [← h.digest, hnil] at hlength
    cases hlength
  rw [Row.candidate?, if_pos ⟨h.app, h.task, hdigest⟩]
  rfl

variable {i : Identity} {index : Index}

theorem indexTaskReference_eq (hi : Plain i.appId) (rows : List Row) :
    indexTaskReference sha256 rows i.appId i.taskId =
      if canonicalAppId i.appId = [] ∨ canonicalTaskId i.taskId = [] then
        .error "Task reference requires App and Task ids"
      else .ok (insert rows (i.row sha256), sha256 i.text) := by
  rw [indexTaskReference, taskReferenceDigest, hi.canonicalAppId_idem, canonicalTaskId_idem]
  by_cases hnamed : canonicalAppId i.appId = [] ∨ canonicalTaskId i.taskId = []
  · rw [if_pos hnamed, if_pos hnamed]
  · rw [if_neg hnamed, if_neg hnamed]
    rfl

theorem next_cases (hi : Plain i.appId) :
    index.next sha256 i = index ∨ (i.Named ∧ index.next sha256 i = ⟨insert index.rows (i.row sha256), index.indexed ++ [i]⟩) := by
  rw [Index.next, indexTaskReference_eq hi]
  by_cases hnamed : canonicalAppId i.appId = [] ∨ canonicalTaskId i.taskId = []
  · rw [if_pos hnamed]
    exact .inl rfl
  · rw [if_neg hnamed]
    exact .inr ⟨not_or.mp hnamed, rfl⟩

theorem subset_insert (rows : List Row) (row : Row) : rows ⊆ insert rows row := by
  rw [insert]
  split
  · exact List.Subset.refl rows
  · exact List.subset_append_left rows [row]

theorem Identity.row_sound (hi : Admitted texts i) (hnamed : i.Named) :
    RowSound sha256 texts (i.row sha256) :=
  ⟨rfl, rfl, rfl, hnamed.1, hnamed.2, hi.2⟩

theorem RowSound.ids_eq (hinj : Set.InjOn sha256 texts) {r r' : Row} (h : RowSound sha256 texts r)
    (h' : RowSound sha256 texts r') (hdigest : r.digest = r'.digest) : r.appId = r'.appId ∧ r.taskId = r'.taskId := by
  rw [h.digest, h'.digest] at hdigest
  exact referenceText_inj (hinj h.text h'.text hdigest)

theorem IndexSound.next (hinj : Set.InjOn sha256 texts) (h : IndexSound sha256 texts index)
    (hi : Admitted texts i) : IndexSound sha256 texts (index.next sha256 i) := by
  obtain heq | ⟨hnamed, heq⟩ := next_cases hi.1
  · rw [heq]
    exact h
  · rw [heq]
    have hrow : RowSound sha256 texts (i.row sha256) := Identity.row_sound hi hnamed
    have hold (j : Identity) (hj : j ∈ index.indexed) : ∃ r ∈ insert index.rows (i.row sha256),
        r.appId = canonicalAppId j.appId ∧ r.taskId = canonicalTaskId j.taskId := by
      obtain ⟨r, hr, hids⟩ := h.entered j hj
      exact ⟨r, subset_insert _ _ hr, hids⟩
    by_cases hconflict : ∃ r ∈ index.rows, r.digest = (i.row sha256).digest ∨
        (r.appId = (i.row sha256).appId ∧ r.taskId = (i.row sha256).taskId)
    · rw [insert, if_pos hconflict] at hold ⊢
      refine ⟨h.rows, h.distinct, fun j hj => ?_⟩
      obtain hj | hj := List.mem_append.mp hj
      · exact hold j hj
      · obtain rfl := List.mem_singleton.mp hj
        obtain ⟨r, hr, hdigest | hids⟩ := hconflict
        · exact ⟨r, hr, (h.rows r hr).ids_eq hinj hrow hdigest⟩
        · exact ⟨r, hr, hids⟩
    · rw [insert, if_neg hconflict] at hold ⊢
      refine ⟨fun r hr => ?_, ?_, fun j hj => ?_⟩
      · obtain hr | hr := List.mem_append.mp hr
        · exact h.rows r hr
        · rw [List.mem_singleton.mp hr]
          exact hrow
      · rw [List.map_append]
        refine List.Nodup.append h.distinct (List.nodup_singleton _) (List.disjoint_singleton.mpr fun hmem => ?_)
        obtain ⟨r, hr, hdigest⟩ := List.mem_map.mp hmem
        exact hconflict ⟨r, hr, .inl hdigest⟩
      · obtain hj | hj := List.mem_append.mp hj
        · exact hold j hj
        · obtain rfl := List.mem_singleton.mp hj
          exact ⟨j.row sha256, List.mem_append_right _ (List.mem_singleton.mpr rfl), rfl, rfl⟩

def Index.Reachable (sha256 : Text → Text) (texts : Set Text) (index : Index) : Prop :=
  Reaches (· = ⟨[], []⟩) (Index.next sha256) (fun _ i => Admitted texts i) index

def Index.Later (sha256 : Text → Text) (texts : Set Text) : Index → Index → Prop :=
  Relation.ReflTransGen (Takes (Index.next sha256) fun _ i => Admitted texts i)

theorem Index.Reachable.sound (hinj : Set.InjOn sha256 texts) (h : index.Reachable sha256 texts) :
    IndexSound sha256 texts index := by
  refine Reaches.invariant (I := IndexSound sha256 texts) ?_ (fun index i hindex hi => hindex.next hinj hi) h
  rintro _ rfl
  exact ⟨nofun, List.nodup_nil, nofun⟩

theorem Index.Reachable.later {later : Index} (h : index.Reachable sha256 texts)
    (hlater : index.Later sha256 texts later) : later.Reachable sha256 texts := by
  obtain ⟨start, hstart, hsteps⟩ := h
  exact ⟨start, hstart, hsteps.trans hlater⟩

theorem Index.Later.rows_subset {later : Index} (h : index.Later sha256 texts later) : index.rows ⊆ later.rows := by
  induction h with
  | refl => exact List.Subset.refl _
  | tail _ hstep ih =>
    obtain ⟨i, hi, rfl⟩ := hstep
    refine List.Subset.trans ih ?_
    obtain heq | ⟨-, heq⟩ := @next_cases sha256 _ _ hi.1 <;> rw [heq]
    · exact List.Subset.refl _
    · exact subset_insert _ _

end Index

/-! ### What is shown -/

section Shown

variable {sha256 : Text → Text} {texts : Set Text} {index later : Index}

variable {r : Row} {n : ℕ}

theorem RowSound.column_take (hsha : HexDigest sha256) (h : RowSound sha256 texts r)
    (hn : n = 8 ∨ n = 16 ∨ n = 64) : r.column n = r.digest.take n := by
  rw [Row.column]
  obtain rfl | rfl | rfl := hn
  · exact h.prefix8
  · exact h.prefix16
  · have hlength : r.digest.length = 64 := h.digest ▸ hsha.length _
    exact (List.take_of_length_le hlength.le).symm

theorem valid_take (hsha : HexDigest sha256) (text : Text) (hn : n = 8 ∨ n = 16 ∨ n = 64) :
    Valid ((sha256 text).take n) ∧ ((sha256 text).take n).length = n := by
  have hlength : ((sha256 text).take n).length = n := by
    rw [List.length_take, hsha.length]
    omega
  refine ⟨⟨fun c hc => hsha.hex text c (List.mem_of_mem_take hc), ?_⟩, hlength⟩
  rw [hlength]
  exact hn

theorem RowSound.mem_matching (hsha : HexDigest sha256) {rows : List Row} (h : RowSound sha256 texts r)
    (hr : r ∈ rows) (hn : n = 8 ∨ n = 16 ∨ n = 64) : r ∈ matching rows (r.digest.take n) := by
  rw [matching, List.mem_filter, decide_eq_true_eq]
  refine ⟨hr, ?_⟩
  rw [h.digest, (valid_take hsha _ hn).2, h.column_take hsha hn, h.digest]

theorem displayed_cases (hsha : HexDigest sha256) (h : IndexSound sha256 texts index) (hr : r ∈ index.rows) :
    ∃ n, (n = 8 ∨ n = 16 ∨ n = 64) ∧ displayed index.rows r.digest = r.digest.take n ∧
      matching index.rows (r.digest.take n) = [r] := by
  have hrow := h.rows r hr
  have hsingle (n : ℕ) (hn : n = 8 ∨ n = 16 ∨ n = 64) (hle : (matching index.rows (r.digest.take n)).length ≤ 1) :
      matching index.rows (r.digest.take n) = [r] := by
    have hmem := hrow.mem_matching hsha hr hn
    match hrows : matching index.rows (r.digest.take n) with
    | [] => rw [hrows] at hmem; cases hmem
    | [r'] => rw [hrows, List.mem_singleton] at hmem; rw [hmem]
    | _ :: _ :: _ => rw [hrows] at hle; simp at hle
  have hcount (n : ℕ) (hn : n = 8 ∨ n = 16 ∨ n = 64) :
      (matching index.rows (r.digest.take n)).length = index.rows.countP fun r' => r'.column n = r.digest.take n := by
    have hlength : (r.digest.take n).length = n := by
      rw [hrow.digest]
      exact (valid_take hsha _ hn).2
    rw [matching, ← List.countP_eq_length_filter, hlength]
  rw [displayed]
  split
  case isTrue hle => exact ⟨8, .inl rfl, rfl, hsingle 8 (.inl rfl) ((hcount 8 (.inl rfl)).trans_le hle)⟩
  case isFalse =>
    split
    case isTrue hle =>
      exact ⟨16, .inr (.inl rfl), rfl, hsingle 16 (.inr (.inl rfl)) ((hcount 16 (.inr (.inl rfl))).trans_le hle)⟩
    case isFalse =>
      have hlength : r.digest.length = 64 := hrow.digest ▸ hsha.length _
      have htake : r.digest.take 64 = r.digest := by rw [← hlength, List.take_length]
      refine ⟨64, .inr (.inr rfl), htake.symm, hsingle 64 (.inr (.inr rfl)) ?_⟩
      -- The whole digest is a key.
      rw [hcount 64 (.inr (.inr rfl)), htake]
      have hnodup := List.nodup_iff_count_le_one.mp h.distinct r.digest
      rw [List.count, List.countP_map] at hnodup
      refine le_trans (le_of_eq ?_) hnodup
      refine List.countP_congr fun r' _ => ?_
      simp [Row.column]

theorem displayTaskReferences_get {identities : List Identity} (hplain : ∀ j ∈ identities, Plain j.appId)
    {refs : Table Text Text} (hrefs : displayTaskReferences sha256 index.rows identities = .ok refs) {i : Identity}
    (hi : i ∈ identities) {ref : Text} (href : refs.get i.key = some ref) :
    ref = displayed index.rows (sha256 i.text) := by
  rw [displayTaskReferences, Checked.bind_eq_ok] at hrefs
  obtain ⟨indexed, hindexed, hrefs⟩ := hrefs
  rw [Checked.pure_eq_ok] at hrefs
  subst hrefs
  obtain ⟨v, hv, hget⟩ | ⟨-, hget⟩ := Table.get_foldl_put_cases ∅ indexed i.key
  · obtain rfl : v = ref := by rwa [hget, Option.some.injEq] at href
    obtain ⟨j, hj, hpair⟩ := Checked.mem_of_mapM hindexed hv
    rw [Checked.bind_eq_ok] at hpair
    obtain ⟨_, hdigest, hpair⟩ := hpair
    rw [Checked.pure_eq_ok, Prod.mk.injEq] at hpair
    obtain rfl := Identity.key_inj (hplain j hj) (hplain i hi) hpair.1
    rw [taskReferenceDigest] at hdigest
    split at hdigest <;> cases hdigest
    exact hpair.2.symm
  · rw [hget, Table.get_empty] at href
    cases href

/-- A reference that is shown for an indexed Task resolves to it, and later to it or to several. -/
theorem displayed_resolves (hsha : HexDigest sha256) (hinj : Set.InjOn sha256 texts)
    (hindex : index.Reachable sha256 texts) (hlater : index.Later sha256 texts later) {identities : List Identity}
    (hidentities : ∀ j ∈ identities, Admitted texts j) {refs : Table Text Text}
    (hrefs : displayTaskReferences sha256 index.rows identities = .ok refs) {i : Identity} (hi : i ∈ identities)
    (hindexed : ∃ j ∈ index.indexed, j.Same i) {ref : Text} (href : refs.get i.key = some ref) :
    resolveTaskReference index.rows ref = .ok (.resolved (i.resolved sha256)) ∧
      (resolveTaskReference later.rows ref = .ok (.resolved (i.resolved sha256)) ∨
        ∃ candidates, resolveTaskReference later.rows ref = .ok (.ambiguous candidates)) := by
  have hsound := hindex.sound hinj
  have hsound' := (hindex.later hlater).sound hinj
  obtain ⟨j, hj, hsame⟩ := hindexed
  obtain ⟨r, hr, happ, htask⟩ := hsound.entered j hj
  have hrow := hsound.rows r hr
  have hdigest : r.digest = sha256 i.text := by rw [hrow.digest, happ, htask, hsame.1, hsame.2, Identity.text]
  have hresolved : r.resolved = i.resolved sha256 := by
    rw [Row.resolved, Identity.resolved, happ, htask, hsame.1, hsame.2, hdigest]
  obtain ⟨n, hn, hshown, hmatching⟩ := displayed_cases hsha hsound hr
  have hvalid : Valid (r.digest.take n) := hrow.digest ▸ (valid_take hsha _ hn).1
  have hcandidates {index : Index} (h : IndexSound sha256 texts index) : ∀ r ∈ index.rows, r.candidate? = some r.resolved :=
    fun r hr => (h.rows r hr).candidate hsha
  rw [displayTaskReferences_get (fun j hj => (hidentities j hj).1) hrefs hi href, ← hdigest, hshown, ← hresolved]
  exact ⟨resolve_of_single (hcandidates hsound) hvalid hmatching,
    resolve_of_mem (hcandidates hsound') hvalid (hrow.mem_matching hsha (hlater.rows_subset hr) hn)⟩

end Shown

namespace Sample

def hash (shared : Fin 64) (special text : Text) : Text :=
  if text = special then List.replicate shared 'a' ++ List.replicate (64 - shared) 'b' else List.replicate 64 'a'

theorem hash_hex (shared : Fin 64) (special : Text) : HexDigest (hash shared special) where
  length text := by
    rw [hash]
    split
    · rw [List.length_append, List.length_replicate, List.length_replicate]
      omega
    · exact List.length_replicate
  hex text c hc := by
    have hab : c = 'a' ∨ c = 'b' := by
      rw [hash] at hc
      split at hc
      · obtain hc | hc := List.mem_append.mp hc
        · exact .inl (List.eq_of_mem_replicate hc)
        · exact .inr (List.eq_of_mem_replicate hc)
      · exact .inl (List.eq_of_mem_replicate hc)
    obtain rfl | rfl := hab <;> rfl

theorem hash_injOn (shared : Fin 64) (special other : Text) : Set.InjOn (hash shared special) {special, other} := by
  have hne : List.replicate shared 'a' ++ List.replicate (64 - shared) 'b' ≠ List.replicate 64 'a' := by
    intro heq
    have hb : 'b' ∈ List.replicate 64 'a' := by
      rw [← heq, List.mem_append, List.mem_replicate, List.mem_replicate]
      exact .inr ⟨by omega, rfl⟩
    exact absurd (List.eq_of_mem_replicate hb) (by decide)
  rintro s hs t ht heq
  rw [hash, hash] at heq
  by_cases hspecial : s = special <;> by_cases hspecial' : t = special
  · rw [hspecial, hspecial']
  · rw [if_pos hspecial, if_neg hspecial'] at heq
    exact absurd heq hne
  · rw [if_neg hspecial, if_pos hspecial'] at heq
    exact absurd heq.symm hne
  · rw [hs.resolve_left hspecial, ht.resolve_left hspecial']

def first : Identity := ⟨"mail.app".toList, "one".toList⟩

def second : Identity := ⟨"mail".toList, "two".toList⟩

def texts : Set Text := {second.text, first.text}

def index : Index := Index.next (hash 8 second.text) ⟨[], []⟩ first

def later : Index := Index.next (hash 8 second.text) index second

theorem plain_of_last {appId : Text} {c : Char} (hsingle : ¬ appSuffix <:+ canonicalAppId appId)
    (hlast : (canonicalAppId appId).getLast? = some c) (hc : isSpace c = false) (hsolid : nul ∉ appId) : Plain appId where
  single := hsingle
  tight := by
    rw [hlast]
    rintro _ ⟨⟩
    exact hc
  solid := hsolid

theorem first_admitted : Admitted texts first :=
  ⟨@plain_of_last _ 'l' (by decide +kernel) (by decide +kernel) (by decide) (by decide +kernel), Set.mem_insert_of_mem _ rfl⟩

theorem second_admitted : Admitted texts second :=
  ⟨@plain_of_last _ 'l' (by decide +kernel) (by decide +kernel) (by decide) (by decide +kernel), Set.mem_insert _ _⟩

theorem index_reachable : index.Reachable (hash 8 second.text) texts := by
  have hstart : Index.Reachable (hash 8 second.text) texts ⟨[], []⟩ := Reaches.start rfl
  exact hstart.step first_admitted

theorem index_later : index.Later (hash 8 second.text) texts later := .single ⟨second, second_admitted, rfl⟩

/-- An App id with a blank in front of the suffix. -/
def loose : Identity := ⟨"mail .app".toList, "one".toList⟩

end Sample

open References.Sample in
theorem displayed_resolves_first :
    resolveTaskReference index.rows (List.replicate 8 'a') = .ok (.resolved (first.resolved (hash 8 second.text))) ∧
      (resolveTaskReference later.rows (List.replicate 8 'a') = .ok (.resolved (first.resolved (hash 8 second.text))) ∨
        ∃ candidates, resolveTaskReference later.rows (List.replicate 8 'a') = .ok (.ambiguous candidates)) := by
  have hrefs : displayTaskReferences (hash 8 second.text) index.rows [first] =
      .ok ((∅ : Table Text Text).put first.key (List.replicate 8 'a')) := by rfl
  exact displayed_resolves (hash_hex _ _) (hash_injOn _ _ _) index_reachable index_later
    (fun _ hj => List.mem_singleton.mp hj ▸ first_admitted) hrefs (List.mem_singleton.mpr rfl)
    ⟨first, by decide +kernel, rfl, rfl⟩ (Table.get_put_self _ _ _)

open References.Sample in
/-- The reference of an App id with a blank in front of its suffix is shown, but it is not in the index. -/
theorem displayed_missing :
    ∃ sha256 : Text → Text, HexDigest sha256 ∧ Set.InjOn sha256 {loose.text, first.text} ∧
      ¬ appSuffix <:+ canonicalAppId loose.appId ∧
      loose ∈ (Index.next sha256 ⟨[], []⟩ loose).indexed ∧
      ∃ refs ref, displayTaskReferences sha256 (Index.next sha256 ⟨[], []⟩ loose).rows [loose] = .ok refs ∧
        refs.get loose.key = some ref ∧
        resolveTaskReference (Index.next sha256 ⟨[], []⟩ loose).rows ref = .ok .missing := by
  have hrefs : displayTaskReferences (hash 0 loose.text) (Index.next (hash 0 loose.text) ⟨[], []⟩ loose).rows [loose] =
      .ok ((∅ : Table Text Text).put loose.key (List.replicate 8 'b')) := by rfl
  exact ⟨hash 0 loose.text, hash_hex _ _, hash_injOn _ _ _, by decide +kernel, by decide +kernel, _, _, hrefs,
    Table.get_put_self _ _ _, by decide +kernel⟩

end References

end MayAgent
