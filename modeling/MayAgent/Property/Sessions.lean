import Mathlib.Data.List.Forall2
import MayAgent.Host.Sessions

/-!
# What a resumed session knows

A resumed run should start with the messages the model had at the crash, with an error for each tool call that has
no result, and with a notice. It does so from the log alone, and from the snapshot as long as nothing was persisted
after it: the messages after a compaction are only in the log, which is not read when there is a snapshot. The
repair looks at the last message only, so the calls of an earlier one must have their results.
-/

namespace MayAgent

/-! ### Tool calls and their results -/

namespace Message

def Alike (m m' : Message) : Prop := m'.role = m.role ∧ m'.toolCalls = m.toolCalls ∧ m'.toolCallId = m.toolCallId

theorem Alike.refl (m : Message) : Alike m m := ⟨rfl, rfl, rfl⟩

theorem Alike.isResultOf {m m' : Message} (h : Alike m m') (id : String) : m'.isResultOf id = m.isResultOf id := by
  rw [Message.isResultOf, Message.isResultOf, h.1, h.2.2]

theorem isResultOf_interrupted (now : Int) (id id' : String) : (interrupted now id).isResultOf id' = (id == id') := by
  simp [isResultOf, interrupted]

@[simp]
theorem isResultOf_userTurn (now : Int) (text id : String) : (userTurn now text).isResultOf id = false := rfl

theorem isSyntheticRestart_notice (now : Int) : isSyntheticRestart (restartNotice now) = true := by
  show Text.startsWith "Process restarted. Continue where you left off." "Process restarted." = true
  decide

end Message

open Message

/-- The calls that no later message answers, in their order. -/
def unresolved : List Message → List String
  | [] => []
  | m :: rest => (m.toolCalls.filter fun id => !rest.any (isResultOf id)) ++ unresolved rest

def Settled : List Message → Prop
  | [] => True
  | [_] => True
  | m :: rest => (∀ id ∈ m.toolCalls, rest.any (isResultOf id) = true) ∧ Settled rest

/-- The number of results of every call meets `p`. -/
def EachCall (p : Nat → Prop) : List Message → Prop
  | [] => True
  | m :: rest => (∀ id ∈ m.toolCalls, p (rest.countP (isResultOf id))) ∧ EachCall p rest

variable {messages messages' tail : List Message}

theorem unresolved_of_settled (h : Settled messages) :
    unresolved messages = (messages.getLast?.map Message.toolCalls).getD [] := by
  induction messages with
  | nil => rfl
  | cons m rest ih =>
    cases rest with
    | nil => simp [unresolved]
    | cons m' rest =>
      have hnone : (m.toolCalls.filter fun id => !(m' :: rest).any (isResultOf id)) = [] := by
        rw [List.filter_eq_nil_iff]
        intro id hid
        simp [h.1 id hid]
      rw [unresolved, hnone, List.nil_append, ih h.2, List.getLast?_cons_cons]

theorem unresolved_subset {id : String} (h : id ∈ unresolved messages) :
    id ∈ messages.flatMap Message.toolCalls := by
  induction messages with
  | nil => cases h
  | cons m _ ih =>
    rw [List.flatMap_cons, List.mem_append]
    rcases List.mem_append.mp h with h | h
    · exact .inl (List.mem_filter.mp h).1
    · exact .inr (ih h)

theorem unresolved_sublist (messages : List Message) : (unresolved messages).Sublist (messages.flatMap Message.toolCalls) := by
  induction messages with
  | nil => exact .slnil
  | cons m _ ih => exact List.filter_sublist.append ih

theorem unresolved_congr (h : List.Forall₂ Alike messages messages') :
    unresolved messages' = unresolved messages := by
  induction h with
  | nil => rfl
  | @cons m _ rest rest' hm hrest ih =>
    have hany : ∀ id, rest'.any (isResultOf id) = rest.any (isResultOf id) := by
      intro id
      clear ih
      induction hrest with
      | nil => rfl
      | cons hm _ ih => rw [List.any_cons, List.any_cons, hm.isResultOf, ih]
    rw [unresolved, unresolved, ih, hm.2.1]
    simp only [hany]

theorem getLast_congr (h : List.Forall₂ Alike messages messages') :
    messages'.getLast?.map Message.toolCalls = messages.getLast?.map Message.toolCalls := by
  induction h with
  | nil => rfl
  | cons hm hrest ih =>
    cases hrest with
    | nil => simp [hm.2.1]
    | cons =>
      rw [List.getLast?_cons_cons, List.getLast?_cons_cons]
      exact ih

theorem eachCall_congr {p : Nat → Prop} (h : List.Forall₂ Alike messages messages')
    (hcalls : EachCall p messages) : EachCall p messages' := by
  induction h with
  | nil => trivial
  | @cons m _ rest rest' hm hrest ih =>
    have hcount : ∀ id, rest'.countP (isResultOf id) = rest.countP (isResultOf id) := by
      intro id
      clear ih hcalls
      induction hrest with
      | nil => rfl
      | cons hm _ ih => rw [List.countP_cons, List.countP_cons, hm.isResultOf, ih]
    refine ⟨fun id hid => ?_, ih hcalls.2⟩
    rw [hcount]
    exact hcalls.1 id (hm.2.1 ▸ hid)

theorem toolCalls_congr (h : List.Forall₂ Alike messages messages') :
    messages'.flatMap Message.toolCalls = messages.flatMap Message.toolCalls := by
  induction h with
  | nil => rfl
  | cons hm _ ih => rw [List.flatMap_cons, List.flatMap_cons, hm.2.1, ih]

variable {pending : List String} {inject : Option String} {now : Int}

theorem eachCall_append (hcalls : (messages.flatMap toolCalls).Nodup)
    (hpending : ∀ id ∈ messages.flatMap toolCalls, id ∈ pending ↔ id ∈ unresolved messages)
    (htail : ∀ id, tail.countP (isResultOf id) = if id ∈ pending then 1 else 0) (hquiet : ∀ m ∈ tail, m.toolCalls = [])
    (h : EachCall (· ≤ 1) messages) : EachCall (· = 1) (messages ++ tail) := by
  induction messages with
  | nil =>
    rw [List.nil_append]
    clear htail
    induction tail with
    | nil => trivial
    | cons m _ ih =>
      refine ⟨fun id hid => ?_, ih fun m' hm' => hquiet m' (List.mem_cons_of_mem m hm')⟩
      rw [hquiet m List.mem_cons_self] at hid
      cases hid
  | cons m rest ih =>
    rw [List.flatMap_cons, List.nodup_append] at hcalls
    obtain ⟨-, hrest, hdistinct⟩ := hcalls
    have hcons : ∀ id, id ∈ (m :: rest).flatMap toolCalls ↔ id ∈ m.toolCalls ∨ id ∈ rest.flatMap toolCalls := by
      intro id
      rw [List.flatMap_cons, List.mem_append]
    have hunresolved : ∀ id, id ∈ unresolved (m :: rest) ↔
        (id ∈ m.toolCalls ∧ rest.any (isResultOf id) = false) ∨ id ∈ unresolved rest := by
      intro id
      rw [unresolved, List.mem_append, List.mem_filter, Bool.not_eq_true']
    refine ⟨fun id hid => ?_, ih hrest (fun id hid => ?_) h.2⟩
    · have hnotrest : id ∉ unresolved rest := fun hmem => hdistinct id hid id (unresolved_subset hmem) rfl
      have hiff : id ∈ pending ↔ rest.any (isResultOf id) = false := by
        rw [hpending id ((hcons id).mpr (.inl hid)), hunresolved]
        simp [hid, hnotrest]
      have hle : rest.countP (isResultOf id) ≤ 1 := h.1 id hid
      show (rest ++ tail).countP (isResultOf id) = 1
      rw [List.countP_append, htail]
      have hany : rest.any (isResultOf id) = true ↔ 0 < rest.countP (isResultOf id) := by
        rw [List.any_eq_true, List.countP_pos_iff]
      cases hanswer : rest.any (isResultOf id) with
      | true =>
        rw [if_neg (by rw [hiff, hanswer]; decide)]
        have := hany.mp hanswer
        omega
      | false =>
        rw [if_pos (hiff.mpr hanswer)]
        have : ¬0 < rest.countP (isResultOf id) := fun hpos => by simp [hany.mpr hpos] at hanswer
        omega
    · rw [hpending id ((hcons id).mpr (.inr hid)), hunresolved]
      have hnot : id ∉ m.toolCalls := fun hmem => hdistinct id hmem id hid rfl
      simp [hnot]

/-! ### Redaction -/

namespace Redaction

variable (r : Redaction)

def Redacted (m m' : Message) : Prop := m' = m ∨ m' = r.sanitize m

/-- Redaction leaves the ids of the tool calls that the message makes or answers. -/
def Keeps (m : Message) : Prop := (∀ id ∈ m.toolCalls, r.text id = id) ∧ ∀ id ∈ m.toolCallId, r.text id = id

variable {r}

theorem callIds_block {blocks : List Block} (h : ∀ id ∈ blocks.filterMap Block.callId, r.text id = id) :
    (blocks.map r.block).filterMap Block.callId = blocks.filterMap Block.callId := by
  induction blocks with
  | nil => rfl
  | cons b blocks ih =>
    cases b with
    | toolCall id =>
      have hid : r.text id = id := h id (by simp [Block.callId])
      have hrest := ih fun id' hid' => h id' (List.mem_cons_of_mem id hid')
      show r.text id :: (blocks.map r.block).filterMap Block.callId = id :: blocks.filterMap Block.callId
      rw [hid, hrest]
    | text => exact ih h
    | other => exact ih h

variable {m : Message}

theorem Keeps.alike (h : r.Keeps m) : Alike m (r.sanitize m) := by
  unfold sanitize
  split
  · exact .refl m
  · refine ⟨rfl, ?_, ?_⟩
    · obtain ⟨role, content, _⟩ := m
      cases role with
      | assistant =>
        cases content with
        | text => rfl
        | blocks => exact callIds_block h.1
      | system => rfl
      | user => rfl
      | toolResult => rfl
    · show m.toolCallId.map r.text = m.toolCallId
      cases hid : m.toolCallId with
      | none => rfl
      | some id => exact congrArg some (h.2 id hid)

theorem Keeps.of_alike {m' : Message} (h : r.Keeps m) (halike : Alike m m') : r.Keeps m' :=
  ⟨halike.2.1 ▸ h.1, halike.2.2 ▸ h.2⟩

theorem keeps_interrupted {id : String} (h : r.text id = id) (now : Int) : r.Keeps (interrupted now id) := by
  refine ⟨fun id' hid' => (nomatch hid'), fun id' hid' => ?_⟩
  cases hid'
  exact h

theorem keeps_userTurn (now : Int) (text : String) : r.Keeps (userTurn now text) :=
  ⟨fun _ hid => (nomatch hid), fun _ hid => (nomatch hid)⟩

end Redaction

/-! ### The repaired end -/

/-- The calls that the repair looks at. -/
def lastCalls (stored : List Message) : List String := (stored.getLast?.map Message.toolCalls).getD []

def Tail (inject : Option String) (now : Int) (tail : List Message) : Prop :=
  tail = [] ∨ tail = [restartNotice now] ∨ ∃ text, inject = some text ∧ tail = [userTurn now text]

theorem Tail.userTurns (h : Tail inject now tail) :
    ∀ m ∈ tail, ∃ text, m = userTurn now text := by
  intro m hm
  rcases h with rfl | rfl | ⟨text, -, rfl⟩
  · cases hm
  · exact ⟨_, List.mem_singleton.mp hm⟩
  · exact ⟨_, List.mem_singleton.mp hm⟩

theorem countP_added (hpending : pending.Nodup)
    (htail : Tail inject now tail) (id : String) :
    (pending.map (interrupted now) ++ tail).countP (isResultOf id) = if id ∈ pending then 1 else 0 := by
  have hquiet : tail.countP (isResultOf id) = 0 := by
    rw [List.countP_eq_zero]
    intro m hm
    obtain ⟨_, rfl⟩ := htail.userTurns m hm
    simp
  have herrors : (pending.map (interrupted now)).countP (isResultOf id) = pending.count id := by
    rw [List.countP_map, List.count]
    exact congrArg (pending.countP ·) (funext fun id' => isResultOf_interrupted now id' id)
  rw [List.countP_append, hquiet, herrors, Nat.add_zero, hpending.count]

theorem buildResumeMessages_cases (stored : List Message) (now : Int) :
    (buildResumeMessages stored now = ⟨stored, (lastCalls stored).map (interrupted now) ++ [restartNotice now]⟩) ∨
      (buildResumeMessages stored now = ⟨stored, []⟩ ∧ lastCalls stored = []) := by
  unfold buildResumeMessages
  dsimp only
  split
  case h_1 last hlast =>
    split
    case isTrue huser =>
      refine .inr ?_
      have hnone : lastCalls stored = [] := by
        cases hcalls : (lastCalls stored).getLast? with
        | none => exact List.getLast?_eq_none_iff.mp hcalls
        | some id =>
          have herror : (stored ++ (lastCalls stored).map (interrupted now)).getLast? = some (interrupted now id) := by
            rw [List.getLast?_append, List.getLast?_map, hcalls]
            rfl
          have hsame : some (interrupted now id) = some last := herror.symm.trans hlast
          cases hsame
          cases huser
      exact ⟨by show ResumeMessages.mk stored ((lastCalls stored).map _ ++ []) = _; rw [hnone]; rfl, hnone⟩
    · exact .inl rfl
  case h_2 hnil =>
    have hstored : stored = [] := by
      rw [List.getLast?_eq_none_iff, List.append_eq_nil_iff] at hnil
      exact hnil.1
    subst hstored
    exact .inr ⟨rfl, rfl⟩

/-- The run starts with what was read, errors for the calls of the last message, and a tail, unless an injected message
replaces the last message that was read. -/
theorem resumeWith_cases (stored : List Message) (inject : Option String) (now : Int)
    (hinject : inject.filter (· ≠ "") ≠ none → stored.getLast?.any isSyntheticRestart = false) :
    ∃ tail, Tail inject now tail ∧ (resumeWith stored inject now).kept = stored ∧
      (resumeWith stored inject now).added = (lastCalls stored).map (interrupted now) ++ tail := by
  unfold resumeWith
  dsimp only
  split
  · rcases buildResumeMessages_cases stored now with hbuild | ⟨hbuild, hnone⟩ <;> rw [hbuild]
    · exact ⟨_, .inr (.inl rfl), rfl, rfl⟩
    · exact ⟨[], .inl rfl, rfl, by rw [hnone]; rfl⟩
  case h_2 text htext =>
    have hgiven : inject = some text := (Option.filter_eq_some_iff.mp htext).1
    rcases buildResumeMessages_cases stored now with hbuild | ⟨hbuild, hnone⟩ <;> rw [hbuild]
    · have hlast : (ResumeMessages.mk stored ((lastCalls stored).map (interrupted now) ++ [restartNotice now])).messages.getLast? =
          some (restartNotice now) := by
        rw [ResumeMessages.messages, ← List.append_assoc, List.getLast?_concat]
      have hsynthetic : isSyntheticRestart (restartNotice now) = true := isSyntheticRestart_notice now
      rw [hlast, Option.any_some, if_pos hsynthetic, if_neg (by simp), List.dropLast_concat]
      exact ⟨_, .inr (.inr ⟨text, hgiven, rfl⟩), rfl, rfl⟩
    · have hkept : (ResumeMessages.mk stored []).messages = stored := List.append_nil stored
      rw [hkept, hinject (by rw [htext]; simp), if_neg (by decide), hnone]
      exact ⟨[userTurn now text], .inr (.inr ⟨text, hgiven, rfl⟩), rfl, rfl⟩

/-! ### Runs -/

namespace AgentSession

variable (r : Redaction)

/-- What a resumption promises: the messages of the model at the crash, redacted or not, then an error for each call
without a result, then at most one notice. So every call has one result, if none had several. -/
structure Restores (s : AgentSession) (inject : Option String) (now : Int) : Prop where
  whole : ∃ base tail, List.Forall₂ r.Redacted s.context base ∧ Tail inject now tail ∧
    (resumeWith s.stored inject now).messages = base ++ (unresolved s.context).map (interrupted now) ++ tail
  answered : (s.context.flatMap Message.toolCalls).Nodup → EachCall (· ≤ 1) s.context →
    EachCall (· = 1) (resumeWith s.stored inject now).messages

/-- Nothing was compacted, or the last compaction was saved and no message was persisted since; the calls of all
messages but the last one have a result; and a message is not injected after a message that reads like the notice. -/
def Resumable (s : AgentSession) (inject : Option String) : Prop :=
  (s.compaction = none ∨ s.compaction = some true ∧ s.appended = 0) ∧ Settled s.context ∧
    (inject.filter (· ≠ "") ≠ none → s.stored.getLast?.any isSyntheticRestart = false)

/-- Resumptions only where they are promised to be right, and no ids of tool calls that are redacted. -/
def Regular (s : AgentSession) : Action → Prop
  | .append m => r.Keeps m
  | .compact _ _ _ => True
  | .resume inject _ => s.Resumable inject
  | .interruptedResume inject _ _ => s.Resumable inject

/-- The file that is read holds the messages of the model. -/
structure Sound (s : AgentSession) : Prop where
  logged : s.compaction = none → s.snapshot = none ∧ (∀ m ∈ s.context, r.Keeps m) ∧
    List.Forall₂ (fun m m' => r.Redacted m m' ∧ Alike m m') s.context s.log
  saved : s.compaction = some true → s.appended = 0 → ∃ first rest, s.snapshot = some (first :: rest) ∧ s.context = first :: rest

variable {r} {s : AgentSession} {inject : Option String}

theorem Sound.stored (h : s.Sound r) (hresumable : s.Resumable inject) :
    List.Forall₂ (fun m m' => r.Redacted m m' ∧ Alike m m') s.context s.stored := by
  rcases hresumable.1 with hnone | ⟨hsaved, hzero⟩
  · obtain ⟨hsnapshot, -, hlog⟩ := h.logged hnone
    rw [AgentSession.stored, hsnapshot]
    exact hlog
  · obtain ⟨_, _, hsnapshot, hcontext⟩ := h.saved hsaved hzero
    rw [AgentSession.stored, hsnapshot, hcontext]
    exact List.forall₂_same.mpr fun m _ => ⟨Or.inl rfl, .refl m⟩

theorem Sound.restores (h : s.Sound r) (hresumable : s.Resumable inject) (now : Int) : s.Restores r inject now := by
  have hstored := h.stored hresumable
  have halike : List.Forall₂ Alike s.context s.stored := hstored.imp fun _ _ hm => hm.2
  have hpending : lastCalls s.stored = unresolved s.context := by
    rw [unresolved_of_settled hresumable.2.1, lastCalls, getLast_congr halike]
  obtain ⟨tail, htail, hkept, hadded⟩ := resumeWith_cases s.stored inject now hresumable.2.2
  have hmessages : (resumeWith s.stored inject now).messages =
      s.stored ++ ((unresolved s.context).map (interrupted now) ++ tail) := by
    rw [ResumeMessages.messages, hkept, hadded, hpending]
  refine ⟨⟨s.stored, tail, hstored.imp fun _ _ hm => hm.1, htail, by rw [hmessages, List.append_assoc]⟩, fun hnodup hle => ?_⟩
  rw [hmessages]
  have hcalls := toolCalls_congr halike
  refine eachCall_append (hcalls ▸ hnodup) (fun id _ => by rw [unresolved_congr halike]) ?_ ?_ (eachCall_congr halike hle)
  · exact countP_added (hnodup.sublist (unresolved_sublist _)) htail
  · intro m hm
    rcases List.mem_append.mp hm with hm | hm
    · obtain ⟨id, -, rfl⟩ := List.mem_map.mp hm
      rfl
    · obtain ⟨_, rfl⟩ := htail.userTurns m hm
      rfl

theorem keeps_of_forall₂ {context log : List Message}
    (h : List.Forall₂ (fun m m' => r.Redacted m m' ∧ Alike m m') context log) (hkeeps : ∀ m ∈ context, r.Keeps m) :
    ∀ m ∈ log, r.Keeps m := by
  induction h with
  | nil => exact hkeeps
  | @cons m _ _ _ hm _ ih =>
    intro n hn
    rcases List.mem_cons.mp hn with rfl | hn
    · exact (hkeeps m List.mem_cons_self).of_alike hm.2
    · exact ih (fun k hk => hkeeps k (List.mem_cons_of_mem m hk)) n hn

theorem forall₂_sanitize (h : ∀ m ∈ messages, r.Keeps m) :
    List.Forall₂ (fun m m' => r.Redacted m m' ∧ Alike m m') messages (messages.map r.sanitize) := by
  induction messages with
  | nil => exact .nil
  | cons m _ ih =>
    exact .cons ⟨.inr rfl, (h m List.mem_cons_self).alike⟩ (ih fun k hk => h k (List.mem_cons_of_mem m hk))

theorem Sound.resumed (h : s.Sound r) (hresumable : s.Resumable inject) (now : Int) {added : List Message}
    (hadded : added <+: (resumeWith s.stored inject now).added) :
    Sound r { s.persist r added with context := (resumeWith s.stored inject now).kept ++ added } := by
  obtain ⟨_, htail, hkept, hall⟩ := resumeWith_cases s.stored inject now hresumable.2.2
  rw [hkept]
  refine ⟨fun hnone => ?_, fun hsaved hzero => ?_⟩
  · obtain ⟨hsnapshot, hkeeps, hlog⟩ := h.logged hnone
    have hstored : s.stored = s.log := by rw [AgentSession.stored, hsnapshot]
    have hkeepslog := keeps_of_forall₂ hlog hkeeps
    have hkeepsadded : ∀ m ∈ added, r.Keeps m := by
      intro m hm
      have hmem := hadded.subset hm
      rw [hall, hstored] at hmem
      rcases List.mem_append.mp hmem with hm | hm
      · obtain ⟨id, hid, rfl⟩ := List.mem_map.mp hm
        obtain ⟨last, hlast, hcall⟩ : ∃ last, s.log.getLast? = some last ∧ id ∈ last.toolCalls := by
          cases hlast : s.log.getLast? with
          | none => simp [lastCalls, hlast] at hid
          | some last => exact ⟨last, rfl, by simpa [lastCalls, hlast] using hid⟩
        exact Redaction.keeps_interrupted ((hkeepslog last (List.mem_of_getLast? hlast)).1 id hcall) now
      · obtain ⟨text, rfl⟩ := htail.userTurns m hm
        exact Redaction.keeps_userTurn now text
    refine ⟨hsnapshot, fun m hm => ?_, ?_⟩
    · rcases List.mem_append.mp hm with hm | hm
      · exact hkeepslog m (hstored ▸ hm)
      · exact hkeepsadded m hm
    · show List.Forall₂ _ (s.stored ++ added) (s.log ++ added.map r.sanitize)
      rw [hstored]
      exact List.rel_append (List.forall₂_same.mpr fun m _ => ⟨Or.inl rfl, .refl m⟩) (forall₂_sanitize hkeepsadded)
  · have hsum : s.appended + added.length = 0 := hzero
    obtain ⟨first, rest, hsnapshot, _⟩ := h.saved hsaved (by omega)
    have hnil : added = [] := List.eq_nil_of_length_eq_zero (by omega)
    refine ⟨first, rest, hsnapshot, ?_⟩
    show s.stored ++ added = first :: rest
    rw [hnil, List.append_nil, AgentSession.stored, hsnapshot]

theorem Sound.next (h : s.Sound r) {action : Action} (hok : s.Regular r action) : (s.next r action).Sound r := by
  cases action with
  | append =>
    refine ⟨fun hnone => ?_, fun _ hzero => absurd hzero (Nat.succ_ne_zero _)⟩
    obtain ⟨hsnapshot, hkeeps, hlog⟩ := h.logged hnone
    refine ⟨hsnapshot, fun k hk => ?_, ?_⟩
    · rcases List.mem_append.mp hk with hk | hk
      · exact hkeeps k hk
      · rw [List.mem_singleton.mp hk]
        exact hok
    · exact List.rel_append hlog (.cons ⟨.inr rfl, Redaction.Keeps.alike hok⟩ .nil)
  | compact first rest saved =>
    refine ⟨fun hnone => (nomatch hnone), fun hsaved _ => ?_⟩
    have hflag : saved = true := Option.some.inj hsaved
    subst hflag
    exact ⟨first, rest, rfl, rfl⟩
  | resume _ now => exact h.resumed hok now (List.prefix_refl _)
  | interruptedResume _ now => exact h.resumed hok now (List.take_prefix _ _)

/-- In a regular run every resumption restores the messages of the model. -/
theorem resume_restores (r : Redaction) (s : AgentSession) (inject : Option String) (now : Int)
    (hreach : Reachable r (Regular r) s) (hresumable : s.Resumable inject) : s.Restores r inject now := by
  have hsound : s.Sound r := by
    refine Reaches.invariant (fun s hs => ?_) (fun s action h hok => h.next hok) hreach
    subst hs
    exact ⟨fun _ => ⟨rfl, fun _ hm => (nomatch hm), .nil⟩, fun hsaved => (nomatch hsaved)⟩
  exact hsound.restores hresumable now

end AgentSession

/-! ### A message that is lost -/

namespace Sample.Sessions

def plain : Redaction := ⟨id, id, fun _ => true⟩

def said (role : Role) (text : String) : Message := { role, content := .blocks [.text text], timestamp := 0 }

def compacted : AgentSession :=
  ((AgentSession.initial.next plain (.append (said .user "Find the leak."))).next plain
    (.compact (said .user "Summary: find the leak.") [] true)).next plain (.append (said .assistant "It is in the cache."))

def call : Message := { role := .assistant, content := .blocks [.toolCall "call-1" "grep" .null], timestamp := 0 }

def calling : AgentSession :=
  (AgentSession.initial.next plain (.append (said .user "Find the leak."))).next plain
    (.append call)

theorem keeps (m : Message) : plain.Keeps m := ⟨fun _ _ => rfl, fun _ _ => rfl⟩

theorem compacted_reachable : AgentSession.Reachable plain (AgentSession.Regular plain) compacted := by
  have hinitial : AgentSession.Reachable plain (AgentSession.Regular plain) AgentSession.initial := Reaches.start rfl
  have hasked := hinitial.step (a := .append (said .user "Find the leak.")) (keeps _)
  have hcompacted := hasked.step (a := .compact (said .user "Summary: find the leak.") [] true) trivial
  exact hcompacted.step (a := .append (said .assistant "It is in the cache.")) (keeps _)

theorem calling_reachable : AgentSession.Reachable plain (AgentSession.Regular plain) calling := by
  have hinitial : AgentSession.Reachable plain (AgentSession.Regular plain) AgentSession.initial := Reaches.start rfl
  have hasked := hinitial.step (a := .append (said .user "Find the leak.")) (keeps _)
  exact hasked.step (a := .append call) (keeps _)

end Sample.Sessions

open Sample.Sessions in
theorem AgentSession.resume_restores_calling : calling.Restores plain none 7 :=
  AgentSession.resume_restores plain calling none 7 calling_reachable
    ⟨.inl rfl, ⟨fun _ hid => (nomatch hid), trivial⟩, fun h => absurd rfl h⟩

open Sample.Sessions in
/-- The answer that was persisted after the compaction is not among the messages of the resumed run. -/
theorem resume_loses_message :
    AgentSession.Reachable plain (AgentSession.Regular plain) compacted ∧ ¬compacted.Restores plain none 7 := by
  refine ⟨compacted_reachable, fun h => ?_⟩
  obtain ⟨_, _, hbase, -, hmessages⟩ := h.whole
  have hcontext : compacted.context.length = 2 := rfl
  have hresumed : (resumeWith compacted.stored none 7).messages.length = 1 := rfl
  have hlength := congrArg List.length hmessages
  rw [hresumed, List.length_append, List.length_append, ← hbase.length_eq, hcontext] at hlength
  omega

end MayAgent
