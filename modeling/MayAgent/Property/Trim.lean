import MayAgent.Host.Trim
import MayAgent.Property.Sessions

/-!
# What a trim leaves of the log

The log should hold every message that was appended to it, apart from the silent turns that were trimmed. Compactions
and resumptions only append to it, but a trim writes it anew from the list of the model. So nothing is lost as long as
trims are made while that list still has every message of the log: not after a compaction, and not in a run that was
resumed from a snapshot, from a log with system messages, or with a notice replaced.
-/

namespace MayAgent

open Message

def Redaction.Leads (r : Redaction) : Message → Message → Prop := Relation.ReflTransGen fun m m' => m' = r.sanitize m

theorem Redaction.role_sanitize (r : Redaction) (m : Message) : (r.sanitize m).role = m.role := by
  unfold sanitize
  split <;> rfl

theorem Redaction.Leads.role {r : Redaction} {m m' : Message} (h : r.Leads m m') : m'.role = m.role := by
  induction h with
  | refl => rfl
  | tail _ hstep ih => rw [hstep, r.role_sanitize, ih]

/-- Every message of the first list is in the second one, in order and up to redaction. -/
def Redaction.Holds (r : Redaction) : List Message → List Message → Prop := List.SublistForall₂ r.Leads

namespace Redaction.Holds

variable {r : Redaction} {kept log : List Message}

theorem refl (r : Redaction) (messages : List Message) : r.Holds messages messages :=
  List.sublistForall₂_iff.mpr ⟨messages, List.forall₂_same.mpr fun _ _ => .refl, .refl messages⟩

theorem append {kept' log' : List Message} (h : r.Holds kept log) (h' : r.Holds kept' log') :
    r.Holds (kept ++ kept') (log ++ log') := by
  obtain ⟨found, hfound, hsub⟩ := List.sublistForall₂_iff.mp h
  obtain ⟨found', hfound', hsub'⟩ := List.sublistForall₂_iff.mp h'
  exact List.sublistForall₂_iff.mpr ⟨found ++ found', List.rel_append hfound hfound', hsub.append hsub'⟩

theorem mono {log' : List Message} (h : r.Holds kept log) (hsub : log.Sublist log') : r.Holds kept log' := by
  obtain ⟨found, hfound, hfoundsub⟩ := List.sublistForall₂_iff.mp h
  exact List.sublistForall₂_iff.mpr ⟨found, hfound, hfoundsub.trans hsub⟩

theorem dropLast (h : r.Holds kept log) : r.Holds kept.dropLast log := by
  obtain ⟨found, hfound, hsub⟩ := List.sublistForall₂_iff.mp h
  refine List.sublistForall₂_iff.mpr ⟨found.dropLast, ?_, (List.dropLast_sublist found).trans hsub⟩
  rw [List.dropLast_eq_take, List.dropLast_eq_take, hfound.length_eq]
  exact List.forall₂_take _ hfound

theorem sanitize (h : r.Holds kept log) : r.Holds kept (log.map r.sanitize) := by
  obtain ⟨found, hfound, hsub⟩ := List.sublistForall₂_iff.mp h
  refine List.sublistForall₂_iff.mpr ⟨found.map r.sanitize, ?_, hsub.map _⟩
  exact List.forall₂_map_right_iff.mpr (hfound.imp fun m m' hm => hm.tail rfl)

theorem filter {p : Role → Bool} (h : r.Holds kept log) (hkept : ∀ m ∈ kept, p m.role = true) :
    r.Holds kept (log.filter fun m => p m.role) := by
  obtain ⟨found, hfound, hsub⟩ := List.sublistForall₂_iff.mp h
  refine List.sublistForall₂_iff.mpr ⟨found, hfound, ?_⟩
  have hall : found.filter (fun m => p m.role) = found := by
    rw [List.filter_eq_self]
    clear h hsub
    induction hfound with
    | nil => exact fun _ hm => (nomatch hm)
    | @cons m _ _ _ hm _ ih =>
      intro k hk
      rcases List.mem_cons.mp hk with rfl | hk
      · rw [hm.role]
        exact hkept m List.mem_cons_self
      · exact ih (fun k hk => hkept k (List.mem_cons_of_mem m hk)) k hk
  rw [← hall]
  exact hsub.filter _

end Redaction.Holds

/-! ### Actions -/

theorem getLast_resumeWith (stored : List Message) (inject : Option String) (now : Int) :
    ∀ last ∈ (resumeWith stored inject now).messages.getLast?, last.role = .user := by
  have hturn : ∀ (kept : List Message) (added : List Message) (text : String),
      ∀ last ∈ (ResumeMessages.mk kept (added ++ [userTurn now text])).messages.getLast?, last.role = .user := by
    intro kept added text last hlast
    rw [ResumeMessages.messages, ← List.append_assoc, List.getLast?_concat] at hlast
    cases hlast
    rfl
  unfold resumeWith
  dsimp only
  split
  · unfold buildResumeMessages
    dsimp only
    split
    case h_1 last hlast =>
      split
      case isTrue huser =>
        intro last' hlast'
        rw [ResumeMessages.messages, List.append_nil, hlast] at hlast'
        cases hlast'
        exact huser
      case isFalse => exact hturn _ _ _
    case h_2 hnone =>
      intro last hlast
      rw [ResumeMessages.messages, List.append_nil, hnone] at hlast
      cases hlast
  · split
    · split
      · exact hturn _ [] _
      · exact hturn _ _ _
    · exact hturn _ _ _

theorem added_ne_system (stored : List Message) (inject : Option String) (now : Int) :
    ∀ m ∈ (resumeWith stored inject now).added, m.role ≠ .system := by
  have hbuilt : ∀ m ∈ (buildResumeMessages stored now).added, m.role ≠ .system := by
    intro m hm
    rcases buildResumeMessages_cases stored now with hbuild | ⟨hbuild, -⟩ <;> rw [hbuild] at hm
    · rcases List.mem_append.mp hm with hm | hm
      · obtain ⟨_, -, rfl⟩ := List.mem_map.mp hm
        exact fun h => (nomatch h)
      · rw [List.mem_singleton.mp hm]
        exact fun h => (nomatch h)
    · cases hm
  have hturn : ∀ (added : List Message) (text : String), (∀ m ∈ added, m.role ≠ .system) →
      ∀ m ∈ added ++ [userTurn now text], m.role ≠ .system := by
    intro added text hadded m hm
    rcases List.mem_append.mp hm with hm | hm
    · exact hadded m hm
    · rw [List.mem_singleton.mp hm]
      exact fun h => (nomatch h)
  unfold resumeWith
  dsimp only
  split
  · exact hbuilt
  · split
    · split
      · exact hturn [] _ fun _ hm => (nomatch hm)
      · exact hturn _ _ fun m hm => hbuilt m ((List.dropLast_sublist _).subset hm)
    · exact hturn _ _ hbuilt

theorem AgentSession.log_next (r : Redaction) (s : AgentSession) (action : AgentSession.Action) :
    (s.next r action).log = s.log ++ (s.persisted action).map r.sanitize := by
  cases action with
  | append => rfl
  | compact => exact (List.append_nil s.log).symm
  | resume => rfl
  | interruptedResume => rfl

theorem trimTerminalEmptyAssistantTurn_eq_some {messages left : List Message}
    (h : trimTerminalEmptyAssistantTurn messages = some left) :
    ∃ last, messages = left ++ [last] ∧ last.isEmptyTurn = true := by
  unfold trimTerminalEmptyAssistantTurn at h
  split at h
  case h_1 last hlast =>
    split at h
    case isTrue hempty =>
      cases h
      exact ⟨last, (List.dropLast_append_getLast? last hlast).symm, hempty⟩
    case isFalse => cases h
  case h_2 => cases h

namespace TrimmedSession

variable {r : Redaction} {s : TrimmedSession}

theorem log_act (s : TrimmedSession) (action : AgentSession.Action) (baseline : Option SystemMessage) :
    (s.next r (.act action baseline)).session.log =
      s.session.log ++ (s.session.persisted action).map r.sanitize := by
  rw [← AgentSession.log_next]
  cases action <;> rfl

/-- Trims while the list of the model is whole. A trimmed message has its content in blocks, as the messages of an
assistant have. -/
def Careful (s : TrimmedSession) : Action → Prop
  | .act _ _ => True
  | .trim _ _ => s.whole = true ∧
    ∀ last ∈ s.session.context.getLast?, last.role = .assistant → last.content = .blocks last.blocks

/-- The log holds the messages that are kept. The list of the model, if it is whole, holds those that the run started
with, and ends with those that were appended since, as they are. -/
structure Sound (r : Redaction) (s : TrimmedSession) : Prop where
  logged : r.Holds s.kept s.session.log
  listed : s.whole = true → ∃ old known recent, s.session.context = old ++ recent ∧ s.kept = known ++ recent ∧
    r.Holds known old ∧ ∀ last ∈ old.getLast?, last.role ≠ .assistant

theorem Sound.resumed (h : s.Sound r) {inject : Option String} {now : Int} (baseline : Option SystemMessage)
    (hwhole : s.stillWhole (.resume inject now) = true) :
    r.Holds (s.kept ++ (resumeWith s.session.stored inject now).added)
      (restoreAgentMessages baseline (resumeWith s.session.stored inject now).messages) := by
  simp only [stillWhole, Bool.and_eq_true, beq_iff_eq, List.all_eq_true, bne_iff_ne] at hwhole
  obtain ⟨hread, hkept⟩ := hwhole
  have hmessages : r.Holds (s.kept ++ (resumeWith s.session.stored inject now).added)
      (resumeWith s.session.stored inject now).messages := by
    rw [ResumeMessages.messages, hread]
    exact h.logged.append (.refl r _)
  have hplain : ∀ m ∈ s.kept ++ (resumeWith s.session.stored inject now).added, decide (m.role ≠ .system) = true := by
    intro m hm
    rw [decide_eq_true_iff]
    rcases List.mem_append.mp hm with hm | hm
    · exact hkept m hm
    · exact added_ne_system _ inject now m hm
  exact (hmessages.filter (p := fun role => decide (role ≠ .system)) hplain).mono (List.sublist_append_right _ _)

theorem getLast_restored (baseline : Option SystemMessage) {messages : List Message}
    (h : ∀ last ∈ messages.getLast?, last.role = .user) :
    ∀ last ∈ (restoreAgentMessages baseline messages).getLast?, last.role ≠ .assistant := by
  intro last hlast
  rw [restoreAgentMessages, List.getLast?_append] at hlast
  cases hmessages : messages.getLast? with
  | none =>
    rw [List.getLast?_eq_none_iff.mp hmessages] at hlast
    cases baseline with
    | none => cases hlast
    | some m =>
      have hsame : last = m.message := (Option.some.inj hlast).symm
      rw [hsame, m.system]
      exact fun h => (nomatch h)
  | some final =>
    have huser := h final hmessages
    have hfilter : (messages.filter fun m => m.role ≠ .system).getLast? = some final := by
      rw [← List.dropLast_append_getLast? final hmessages, List.filter_append,
        List.filter_cons_of_pos (by simp [huser]), List.filter_nil, List.getLast?_concat]
    rw [hfilter] at hlast
    cases hlast
    rw [huser]
    exact fun h => (nomatch h)

theorem Sound.act (h : s.Sound r) (action : AgentSession.Action) (baseline : Option SystemMessage) :
    (s.next r (.act action baseline)).Sound r := by
  refine ⟨?_, fun hwhole => ?_⟩
  · rw [log_act]
    exact h.logged.append (Redaction.Holds.refl r _).sanitize
  · cases action with
    | append m =>
      obtain ⟨old, known, recent, hcontext, hkept, hold, hlast⟩ := h.listed hwhole
      refine ⟨old, known, recent ++ [m], ?_, ?_, hold, hlast⟩
      · show s.session.context ++ [m] = old ++ (recent ++ [m])
        rw [hcontext, List.append_assoc]
      · show s.kept ++ [m] = known ++ (recent ++ [m])
        rw [hkept, List.append_assoc]
    | compact => cases hwhole
    | resume inject now =>
      refine ⟨_, _, [], (List.append_nil _).symm, (List.append_nil _).symm, h.resumed baseline hwhole, ?_⟩
      exact getLast_restored baseline (getLast_resumeWith s.session.stored inject now)
    | interruptedResume => cases hwhole

theorem Sound.trim (h : s.Sound r) {rewritten saved : Bool} (hok : s.Careful (.trim rewritten saved)) :
    (s.next r (.trim rewritten saved)).Sound r := by
  cases htrim : trimTerminalEmptyAssistantTurn s.session.context with
  | none =>
    have hsame : s.next r (.trim rewritten saved) = s := by simp only [next, htrim]
    rw [hsame]
    exact h
  | some left =>
    obtain ⟨last, hcontext, hempty⟩ := trimTerminalEmptyAssistantTurn_eq_some htrim
    have hlast : s.session.context.getLast? = some last := by rw [hcontext, List.getLast?_concat]
    obtain ⟨old, known, recent, hlist, hkept, hold, hother⟩ := h.listed hok.1
    have hrole : last.role = .assistant := by
      simp only [isEmptyTurn, Bool.and_eq_true, beq_iff_eq] at hempty
      exact hempty.1.1
    have hsilent : last.isSilent = true := by
      rw [isSilent, hok.2 last hlast hrole]
      exact hempty
    -- The list of the run's start does not end with an assistant's message, so the last one was appended since.
    obtain ⟨recent', rfl⟩ : ∃ recent', recent = recent' ++ [last] := by
      cases hrecent : recent.getLast? with
      | none =>
        rw [List.getLast?_eq_none_iff] at hrecent
        rw [hlist, hrecent, List.append_nil] at hlast
        exact absurd hrole (hother last hlast)
      | some =>
        rw [hlist, List.getLast?_append, hrecent] at hlast
        cases hlast
        exact ⟨recent.dropLast, (List.dropLast_append_getLast? _ hrecent).symm⟩
    have hleft : left = old ++ recent' := by
      rw [hcontext, ← List.append_assoc] at hlist
      exact List.append_cancel_right hlist
    have hdropped : (if s.kept.getLast?.any isSilent then s.kept.dropLast else s.kept) = known ++ recent' := by
      rw [hkept, ← List.append_assoc, List.getLast?_concat, List.dropLast_concat, Option.any_some, if_pos hsilent]
    have hnext : s.next r (.trim rewritten saved) =
        { s with session := trimmed r s.session (old ++ recent') rewritten saved, kept := known ++ recent' } := by
      simp only [next, htrim, hdropped, hleft]
    rw [hnext]
    have hheld : r.Holds (known ++ recent') (old ++ recent') := hold.append (.refl r _)
    refine ⟨?_, fun _ => ⟨old, known, recent', rfl, rfl, hold, hother⟩⟩
    cases rewritten with
    | true => exact hheld.sanitize
    | false =>
      show r.Holds (known ++ recent') s.session.log
      have hlog := h.logged.dropLast
      rw [hkept, ← List.append_assoc, List.dropLast_concat] at hlog
      exact hlog

theorem Reachable.sound (h : Reachable r Careful s) : s.Sound r := by
  refine Reaches.invariant (fun s hs => ?_) (fun s action h hok => ?_) h
  · subst hs
    exact ⟨.refl r [], fun _ => ⟨[], [], [], rfl, rfl, .refl r [], fun _ hlast => (nomatch hlast)⟩⟩
  · cases action with
    | act action baseline => exact h.act action baseline
    | trim => exact h.trim hok

/-- While trims are careful the log holds every message that was appended to it and not trimmed. All other actions
only append to it, whatever came before. -/
theorem log_append_only (r : Redaction) (s : TrimmedSession) :
    (Reachable r Careful s → r.Holds s.kept s.session.log) ∧
      ∀ action baseline, s.session.log <+: (s.next r (.act action baseline)).session.log := by
  refine ⟨fun hreach => hreach.sound.logged, fun action baseline => ?_⟩
  rw [log_act]
  exact List.prefix_append _ _

end TrimmedSession

/-! ### Messages that are lost -/

namespace Sample.Trim

open Sample.Sessions

def request : TrimmedSession.Action := .act (.append (said .user "Find the leak.")) none

def answer : TrimmedSession.Action := .act (.append (said .assistant "It is in the cache.")) none

def followUp : TrimmedSession.Action := .act (.append (said .user "Fix it.")) none

def silence : TrimmedSession.Action := .act (.append { role := .assistant, content := .blocks [], timestamp := 0 }) none

def summarized : TrimmedSession.Action :=
  .act (.compact (said .user "Summary: a leak in the cache.") [said .user "Fix it."] true) none

/-- The messages are compacted before the second request is sent, and its answer is empty. -/
def lost : TrimmedSession :=
  [request, answer, followUp, summarized, silence, .trim true true].foldl (TrimmedSession.next plain) .initial

def held : TrimmedSession :=
  [request, answer, followUp, silence, .trim true true].foldl (TrimmedSession.next plain) .initial

end Sample.Trim

open Sample.Sessions Sample.Trim in
theorem TrimmedSession.log_append_only_held : plain.Holds held.kept held.session.log := by
  refine (TrimmedSession.log_append_only plain held).1 ?_
  have hstart : Reaches (· = TrimmedSession.initial) (TrimmedSession.next plain) TrimmedSession.Careful .initial := .start rfl
  have hanswered := (hstart.step (a := request) trivial).step (a := answer) trivial
  have hsilent := (hanswered.step (a := followUp) trivial).step (a := silence) trivial
  refine hsilent.step (a := .trim true true) ⟨rfl, ?_⟩
  rintro _ ⟨⟩ _
  rfl

open Sample.Sessions Sample.Trim in
/-- The first request and its answer are not in the log that the trim leaves. -/
theorem trim_loses_messages :
    TrimmedSession.Reachable plain (fun _ _ => True) lost ∧ lost.kept.length = 3 ∧
      lost.session.log = [said .user "Summary: a leak in the cache.", said .user "Fix it."] ∧
      ¬plain.Holds lost.kept lost.session.log := by
  have hstart : Reaches (· = TrimmedSession.initial) (TrimmedSession.next plain) (fun _ _ => True) .initial := .start rfl
  have hkept : lost.kept.length = 3 := rfl
  have hlog : lost.session.log = [said .user "Summary: a leak in the cache.", said .user "Fix it."] := rfl
  refine ⟨hstart.foldl (fun _ _ => trivial) _, hkept, hlog, fun h => ?_⟩
  obtain ⟨_, hfound, hsub⟩ := List.sublistForall₂_iff.mp h
  have hlength := hsub.length_le
  rw [← hfound.length_eq, hkept, hlog] at hlength
  exact absurd hlength (by decide)

end MayAgent
