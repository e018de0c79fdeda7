import MayAgent.Host.ControlSocket

/-!
# Frames do not depend on chunks

The lines that a client has received and the one that is not ended are those of all its bytes, however they were split,
so the listener goes through the lines in order and handles each of them once. It does not if a chunk leaves more in the
buffer than the limit allows: the connection is then closed before the lines of that chunk are looked at. And a command
that throws ends the process.
-/

namespace MayAgent

namespace ControlSocket

variable {δ σ ρ : Type} (rt : Runtime δ σ ρ)

/-! ### Lines -/

section Lines

variable {rt} {s : Session σ ρ}

theorem Session.line_of_exited (h : s.exited = true) (line : Units) : s.line rt line = s := by
  rw [Session.line, if_pos h]

theorem Session.foldl_of_exited (h : s.exited = true) (lines : List Units) : lines.foldl (Session.line rt) s = s := by
  induction lines with
  | nil => rfl
  | cons _ _ ih => rw [List.foldl_cons, line_of_exited h, ih]

theorem Session.line_of_blank {line : Units} (h : Units.trim line = []) : s.line rt line = s := by
  rw [Session.line]
  split
  · rfl
  · rfl

theorem Session.foldl_of_blank {lines : List Units} (h : ∀ line ∈ lines, Units.trim line = []) :
    lines.foldl (Session.line rt) s = s := by
  induction lines with
  | nil => rfl
  | cons line _ ih =>
    rw [List.foldl_cons, line_of_blank (h line List.mem_cons_self)]
    exact ih fun other hother => h other (List.mem_cons_of_mem line hother)

theorem Session.log_line (s : Session σ ρ) (line : Units) : s.log <+: (s.line rt line).log := by
  rw [Session.line]
  split
  · exact List.prefix_refl _
  split
  · exact List.prefix_refl _
  split
  · exact List.prefix_append _ _
  rw [Session.handle]
  split
  · exact List.prefix_append _ _
  split
  · exact List.prefix_refl _
  · exact List.prefix_append _ _

theorem Session.log_foldl (s : Session σ ρ) (lines : List Units) : s.log <+: (lines.foldl (Session.line rt) s).log := by
  induction lines generalizing s with
  | nil => exact List.prefix_refl _
  | cons line _ ih => exact (s.log_line line).trans (ih _)

end Lines

def Entry.frame? : Entry ρ → Option Units
  | .handled frame _ => some frame
  | .refused _ => none

/-- The frames of some lines: what they show without white space around it, unless they are blank. -/
def frames (lines : List Units) : List Units := (lines.map Units.trim).filter (· ≠ [])

def Over (line : Units) : Prop := maxIncompleteBufferBytes < Units.byteLength line

instance (line : Units) : Decidable (Over line) := inferInstanceAs (Decidable (_ < _))

variable {line : Units} {lines more : List Units} {bytes : List UInt8}

variable {s : Session σ ρ} {c : Client δ σ ρ} {decoder : δ} {app : σ}

theorem Session.line_of_frame (hframe : Units.trim line ≠ []) (hfits : ¬Over line)
    (hexited : s.exited = false) : s.line rt line = s.handle rt (Units.trim line) := by
  have hsmall : ¬maxFrameBytes < Units.byteLength (Units.trim line) := by
    have hle := Units.byteLength_trim_le line
    have hline : ¬maxIncompleteBufferBytes < Units.byteLength line := hfits
    rw [maxIncompleteBufferBytes] at hline
    rw [maxFrameBytes]
    omega
  rw [Session.line, hexited, if_neg Bool.false_ne_true, if_neg hframe, if_neg hsmall]

theorem Session.handle_cases (s : Session σ ρ) (frame : Units) :
    (∃ app replies, s.handle rt frame = ⟨app, s.log ++ [.handled frame replies], s.exited⟩) ∨
      s.handle rt frame = { s with exited := true } := by
  rw [Session.handle]
  split
  · exact .inl ⟨_, _, rfl⟩
  · split
    · exact .inr rfl
    · exact .inl ⟨_, _, rfl⟩

theorem frames_cons_blank (h : Units.trim line = []) (lines : List Units) :
    frames (line :: lines) = frames lines := by
  rw [frames, List.map_cons, List.filter_cons_of_neg (by simp [h]), frames]

theorem frames_cons_frame (h : Units.trim line ≠ []) (lines : List Units) :
    frames (line :: lines) = Units.trim line :: frames lines := by
  rw [frames, List.map_cons, List.filter_cons_of_pos (by simp [h]), frames]

theorem Session.foldl_entries (hfits : ∀ line ∈ lines, ¬Over line)
    (hexited : s.exited = false) :
    ∃ entries, (lines.foldl (Session.line rt) s).log = s.log ++ entries ∧
      if (lines.foldl (Session.line rt) s).exited then entries.length < (frames lines).length
      else entries.map Entry.frame? = (frames lines).map some := by
  induction lines generalizing s with
  | nil =>
    refine ⟨[], (List.append_nil _).symm, ?_⟩
    rw [List.foldl_nil, hexited, if_neg Bool.false_ne_true]
    rfl
  | cons line lines ih =>
    have hrest : ∀ other ∈ lines, ¬Over other := fun other hother => hfits other (List.mem_cons_of_mem line hother)
    rw [List.foldl_cons]
    by_cases hblank : Units.trim line = []
    · rw [line_of_blank hblank, frames_cons_blank hblank]
      exact ih hrest hexited
    · rw [line_of_frame rt hblank (hfits line List.mem_cons_self) hexited, frames_cons_frame hblank]
      rcases s.handle_cases rt (Units.trim line) with ⟨app, replies, hanswered⟩ | hends
      · rw [hanswered]
        obtain ⟨entries, hlog, hcount⟩ := ih (s := ⟨app, s.log ++ [.handled (Units.trim line) replies], s.exited⟩) hrest hexited
        refine ⟨.handled (Units.trim line) replies :: entries, ?_, ?_⟩
        · rw [hlog, List.append_assoc]
          rfl
        · split
          case isTrue hended =>
            rw [if_pos hended] at hcount
            exact Nat.succ_lt_succ hcount
          case isFalse hgoes =>
            rw [if_neg hgoes] at hcount
            rw [List.map_cons, List.map_cons, hcount]
            rfl
      · rw [hends, foldl_of_exited rfl]
        exact ⟨[], (List.append_nil _).symm, Nat.succ_pos _⟩

/-! ### The lines of a stream -/

/-- The lines that are ended in some bytes, and what follows them. -/
def received (decoder : δ) (bytes : List UInt8) : List Units × Units :=
  cutLines newline (transduce rt.decode decoder bytes).2

theorem received_append (decoder : δ) (bytes more : List UInt8) :
    received rt decoder (bytes ++ more) =
      ((received rt decoder bytes).1 ++ (cutLines newline ((received rt decoder bytes).2 ++
          (transduce rt.decode (transduce rt.decode decoder bytes).1 more).2)).1,
        (cutLines newline ((received rt decoder bytes).2 ++
          (transduce rt.decode (transduce rt.decode decoder bytes).1 more).2)).2) := by
  rw [received, transduce_append, cutLines_append]
  rfl

theorem received_mono (decoder : δ) {more : List UInt8} (h : bytes <+: more) :
    (received rt decoder bytes).1 <+: (received rt decoder more).1 := by
  obtain ⟨_, rfl⟩ := h
  rw [received_append]
  exact List.prefix_append _ _

def before (decoder : δ) (bytes : List UInt8) : List Units := (received rt decoder bytes).1.takeWhile fun line => ¬Over line

def serve (app : σ) (lines : List Units) : Session σ ρ := lines.foldl (Session.line rt) ⟨app, [], false⟩

theorem serve_append (app : σ) (lines more : List Units) :
    serve rt app (lines ++ more) = more.foldl (Session.line rt) (serve rt app lines) := List.foldl_append

/-- Every frame before the first line over the limit is handled once, in order, and answered as when the lines are
handled one after the other. -/
def Framed (decoder : δ) (app : σ) (chunks : List (List UInt8)) : Prop :=
  (serve rt app (before rt decoder chunks.flatten)).log.map Entry.frame? =
      (frames (before rt decoder chunks.flatten)).map some ∧
    (serve rt app (before rt decoder chunks.flatten)).log <+: (Client.run rt decoder app chunks).session.log

/-- A chunk leaves more than the limit in the buffer. -/
def Overflows (decoder : δ) (earlier : List (List UInt8)) (chunk : List UInt8) : Prop :=
  Over (received rt decoder (earlier ++ [chunk]).flatten).2

/-- No chunk so far left more than the limit in the buffer, and the lines have been gone through; or some chunk did, for
the first time, and the lines up to that chunk have been gone through. -/
def Follows (decoder : δ) (app : σ) (chunks : List (List UInt8)) (c : Client δ σ ρ) : Prop :=
  (c.destroyed = false ∧ c.session = serve rt app (received rt decoder chunks.flatten).1 ∧
      (c.session.exited = false → c.decoder = (transduce rt.decode decoder chunks.flatten).1 ∧
        c.buffer = (received rt decoder chunks.flatten).2) ∧
      ∀ earlier chunk later, chunks = earlier ++ chunk :: later → ¬Overflows rt decoder earlier chunk) ∨
    ∃ earlier chunk later, chunks = earlier ++ chunk :: later ∧ Overflows rt decoder earlier chunk ∧
      (∀ first other rest, earlier = first ++ other :: rest → ¬Overflows rt decoder first other) ∧
      (c.destroyed || c.session.exited) = true ∧
      c.session.log = (serve rt app (received rt decoder earlier.flatten).1).log ++
        if (serve rt app (received rt decoder earlier.flatten).1).exited then [] else [.refused .incompleteTooLarge]

theorem flatten_snoc (chunks : List (List UInt8)) (chunk : List UInt8) :
    (chunks ++ [chunk]).flatten = chunks.flatten ++ chunk := by
  rw [List.flatten_append, List.flatten_singleton]

theorem Client.data_of_stopped (h : (c.destroyed || c.session.exited) = true) (chunk : List UInt8) :
    c.data rt chunk = c := by
  rw [Client.data, if_pos h]

theorem Client.data_of_open (hdestroyed : c.destroyed = false)
    (hexited : c.session.exited = false) (hdecoder : c.decoder = (transduce rt.decode decoder bytes).1)
    (hbuffer : c.buffer = (received rt decoder bytes).2) (chunk : List UInt8) :
    ∃ lines, (received rt decoder (bytes ++ chunk)).1 = (received rt decoder bytes).1 ++ lines ∧
      c.data rt chunk =
        if Over (received rt decoder (bytes ++ chunk)).2 then
          ⟨(transduce rt.decode decoder (bytes ++ chunk)).1, (received rt decoder (bytes ++ chunk)).2, true,
            { c.session with log := c.session.log ++ [.refused .incompleteTooLarge] }⟩
        else
          ⟨(transduce rt.decode decoder (bytes ++ chunk)).1, (received rt decoder (bytes ++ chunk)).2, false,
            lines.foldl (Session.line rt) c.session⟩ := by
  refine ⟨_, by rw [received_append], ?_⟩
  rw [Client.data, hdestroyed, hexited, if_neg (by simp), hdecoder, hbuffer, transduce_append, received_append]
  rfl

theorem serve_received_append (decoder : δ) (app : σ) {more : List UInt8}
    (h : (received rt decoder more).1 = (received rt decoder bytes).1 ++ lines) :
    serve rt app (received rt decoder more).1 =
      lines.foldl (Session.line rt) (serve rt app (received rt decoder bytes).1) := by
  rw [h, serve_append]

theorem follows_run (decoder : δ) (app : σ) (chunks : List (List UInt8)) :
    Follows rt decoder app chunks (Client.run rt decoder app chunks) := by
  induction chunks using List.reverseRecOn with
  | nil =>
    refine .inl ⟨rfl, rfl, fun _ => ⟨rfl, rfl⟩, fun earlier chunk later h => ?_⟩
    exact absurd h.symm (List.append_ne_nil_of_right_ne_nil _ (List.cons_ne_nil _ _))
  | append_singleton chunks chunk ih =>
    have hrun : Client.run rt decoder app (chunks ++ [chunk]) = (Client.run rt decoder app chunks).data rt chunk := by
      rw [Client.run, List.foldl_append]
      rfl
    rw [hrun]
    generalize Client.run rt decoder app chunks = c at ih
    rcases ih with ⟨hopen, hsession, hstate, hnone⟩ | ⟨earlier, other, later, rfl, hover, hfirst, hstopped, hlog⟩
    case inr =>
      rw [Client.data_of_stopped rt hstopped]
      exact .inr ⟨earlier, other, later ++ [chunk], by simp, hover, hfirst, hstopped, hlog⟩
    case inl =>
      -- The lines of the chunk, and what is left of it, for a client that is still served.
      have hmore := received_append rt decoder chunks.flatten chunk
      by_cases hover : Overflows rt decoder chunks chunk
      · refine .inr ⟨chunks, chunk, [], rfl, hover, hnone, ?_⟩
        cases hexited : c.session.exited with
        | true =>
          rw [Client.data_of_stopped rt (by rw [hexited, Bool.or_true]), ← hsession, hexited, if_pos rfl, List.append_nil]
          exact ⟨by simp, rfl⟩
        | false =>
          obtain ⟨hdecoder, hbuffer⟩ := hstate hexited
          obtain ⟨lines, -, hdata⟩ := Client.data_of_open rt hopen hexited hdecoder hbuffer chunk
          rw [Overflows, flatten_snoc] at hover
          rw [hdata, if_pos hover, ← hsession, hexited]
          exact ⟨rfl, rfl⟩
      · have hnext : ∀ earlier other later, chunks ++ [chunk] = earlier ++ other :: later →
            ¬Overflows rt decoder earlier other := by
          intro earlier other later heq
          rcases List.eq_nil_or_concat later with rfl | ⟨later, _, rfl⟩
          · obtain ⟨rfl, hlast⟩ := List.append_inj' heq rfl
            cases hlast
            exact hover
          · rw [List.concat_eq_append, ← List.cons_append, ← List.append_assoc] at heq
            obtain ⟨rfl, -⟩ := List.append_inj' heq rfl
            exact hnone earlier other later rfl
        cases hexited : c.session.exited with
        | true =>
          rw [Client.data_of_stopped rt (by rw [hexited, Bool.or_true])]
          refine .inl ⟨hopen, ?_, fun h => ?_, hnext⟩
          · rw [flatten_snoc, serve_received_append rt decoder app (congrArg Prod.fst hmore), ← hsession,
              Session.foldl_of_exited hexited]
          · rw [hexited] at h
            cases h
        | false =>
          obtain ⟨hdecoder, hbuffer⟩ := hstate hexited
          obtain ⟨lines, hlines, hdata⟩ := Client.data_of_open rt hopen hexited hdecoder hbuffer chunk
          rw [Overflows, flatten_snoc] at hover
          rw [hdata, if_neg hover]
          refine .inl ⟨rfl, ?_, fun _ => ?_, hnext⟩
          · rw [flatten_snoc, serve_received_append rt decoder app hlines, hsession]
          · rw [flatten_snoc]
            exact ⟨rfl, rfl⟩

/-! ### Framing -/

theorem before_prefix (decoder : δ) (bytes : List UInt8) : before rt decoder bytes <+: (received rt decoder bytes).1 :=
  List.takeWhile_prefix _

theorem not_over_of_mem_before (h : line ∈ before rt decoder bytes) :
    ¬Over line := by
  simpa using List.mem_takeWhile_imp h

theorem serve_log_mono (app : σ) (h : lines <+: more) :
    (serve rt app lines).log <+: (serve rt app more).log := by
  obtain ⟨_, rfl⟩ := h
  rw [serve_append]
  exact Session.log_foldl _ _

theorem serve_before (decoder : δ) (app : σ) (bytes : List UInt8) :
    if (serve rt app (before rt decoder bytes)).exited then
      (serve rt app (before rt decoder bytes)).log.length < (frames (before rt decoder bytes)).length
    else (serve rt app (before rt decoder bytes)).log.map Entry.frame? = (frames (before rt decoder bytes)).map some := by
  obtain ⟨_, hlog, hcount⟩ := Session.foldl_entries rt (s := ⟨app, [], false⟩)
    (fun line hline => not_over_of_mem_before rt hline) rfl
  rw [List.nil_append] at hlog
  rw [← hlog] at hcount
  exact hcount

theorem frames_served_iff (decoder : δ) (app : σ) (bytes : List UInt8) :
    (serve rt app (before rt decoder bytes)).log.map Entry.frame? = (frames (before rt decoder bytes)).map some ↔
      (serve rt app (before rt decoder bytes)).exited = false := by
  have hserved := serve_before rt decoder app bytes
  constructor
  · intro h
    by_contra hexited
    rw [Bool.not_eq_false] at hexited
    rw [if_pos hexited] at hserved
    have hlength := congrArg List.length h
    rw [List.length_map, List.length_map] at hlength
    omega
  · intro hexited
    rwa [hexited, if_neg Bool.false_ne_true] at hserved

theorem exited_of_serve (h : (serve rt app (lines ++ more)).exited = false) :
    (serve rt app lines).exited = false := by
  by_contra hexited
  rw [Bool.not_eq_false] at hexited
  rw [serve_append, Session.foldl_of_exited hexited, hexited] at h
  cases h

theorem serve_log_prefix_iff (hfits : ∀ line ∈ more, ¬Over line)
    (hexited : (serve rt app (lines ++ more)).exited = false) :
    (serve rt app (lines ++ more)).log <+: (serve rt app lines).log ++ [.refused .incompleteTooLarge] ↔
      ∀ line ∈ more, Units.trim line = [] := by
  obtain ⟨entries, hlog, hcount⟩ := Session.foldl_entries rt hfits (exited_of_serve rt hexited)
  rw [← serve_append] at hlog hcount
  rw [hexited, if_neg Bool.false_ne_true] at hcount
  constructor
  · intro h line hline
    rw [hlog, List.prefix_append_right_inj] at h
    by_contra hframe
    -- A frame left an entry, and the entry of a frame is not the refusal.
    have hmem : Units.trim line ∈ frames more := by
      rw [frames, List.mem_filter]
      exact ⟨List.mem_map_of_mem hline, by simpa using hframe⟩
    have hentry : some (Units.trim line) ∈ entries.map Entry.frame? := by
      rw [hcount]
      exact List.mem_map_of_mem hmem
    obtain ⟨_, hentry, hsome⟩ := List.mem_map.mp hentry
    rw [List.mem_singleton.mp (h.subset hentry)] at hsome
    cases hsome
  · intro hblank
    rw [serve_append, Session.foldl_of_blank hblank]
    exact List.prefix_append _ _

/-- The frames of a stream are handled for a split into chunks exactly if none of them ends the process, and every frame
before the first line over the limit was complete before a chunk that leaves more than the limit in the buffer. -/
theorem frames_handled (decoder : δ) (app : σ) (chunks : List (List UInt8)) :
    Framed rt decoder app chunks ↔
      (serve rt app (before rt decoder chunks.flatten)).exited = false ∧
        ∀ earlier chunk later, chunks = earlier ++ chunk :: later → Overflows rt decoder earlier chunk →
          ∀ line ∈ (before rt decoder chunks.flatten).drop (received rt decoder earlier.flatten).1.length,
            Units.trim line = [] := by
  rw [Framed, frames_served_iff]
  refine and_congr_right fun hexited => ?_
  have hbefore := before_prefix rt decoder chunks.flatten
  rcases follows_run rt decoder app chunks with
    ⟨-, hsession, -, hnone⟩ | ⟨earlier, chunk, later, hchunks, hover, hfirst, -, hlog⟩
  · rw [hsession]
    exact iff_of_true (serve_log_mono rt app hbefore) fun earlier chunk later heq hover =>
      absurd hover (hnone earlier chunk later heq)
  · have hearlier : (received rt decoder earlier.flatten).1 <+: (received rt decoder chunks.flatten).1 := by
      refine received_mono rt decoder ?_
      rw [hchunks, List.flatten_append]
      exact List.prefix_append _ _
    rw [hlog]
    -- The first chunk that leaves too much is the one that counts.
    have hcond : (∀ first other rest, chunks = first ++ other :: rest → Overflows rt decoder first other →
          ∀ line ∈ (before rt decoder chunks.flatten).drop (received rt decoder first.flatten).1.length,
            Units.trim line = []) ↔
        ∀ line ∈ (before rt decoder chunks.flatten).drop (received rt decoder earlier.flatten).1.length,
          Units.trim line = [] := by
      refine ⟨fun h => h earlier chunk later hchunks hover, fun h first other rest heq hother line hline => ?_⟩
      have hle : (received rt decoder earlier.flatten).1.length ≤ (received rt decoder first.flatten).1.length := by
        refine (received_mono rt decoder ?_).length_le
        rcases List.append_eq_append_iff.mp (hchunks.symm.trans heq) with ⟨middle, rfl, -⟩ | ⟨middle, hmiddle, hcons⟩
        · rw [List.flatten_append]
          exact List.prefix_append _ _
        · cases middle with
          | nil =>
            rw [List.append_nil] at hmiddle
            exact hmiddle ▸ List.prefix_refl _
          | cons _ middle =>
            rw [List.cons_append, List.cons.injEq] at hcons
            rw [← hcons.1] at hmiddle
            exact absurd hother (hfirst first other middle hmiddle)
      exact h line ((List.drop_sublist_drop_left _ hle).subset hline)
    rw [hcond]
    rcases le_or_gt (before rt decoder chunks.flatten).length (received rt decoder earlier.flatten).1.length with hle | hlt
    · have hprefix := List.prefix_of_prefix_length_le hbefore hearlier hle
      refine iff_of_true ((serve_log_mono rt app hprefix).trans (List.prefix_append _ _)) fun line hline => ?_
      rw [List.drop_eq_nil_of_le hle] at hline
      cases hline
    · obtain ⟨_, hmore⟩ := List.prefix_of_prefix_length_le hearlier hbefore hlt.le
      rw [← hmore] at hexited ⊢
      rw [exited_of_serve rt hexited, if_neg Bool.false_ne_true, List.drop_left]
      refine serve_log_prefix_iff rt (fun line hline => ?_) hexited
      exact not_over_of_mem_before rt (hmore ▸ List.mem_append_right _ hline)

/-! ### A command lost with its chunk -/

namespace Sample

def runtime : Runtime Unit ℕ ℕ where
  Document := Unit
  decode := fun _ byte => ((), [UInt16.ofNat byte.toNat])
  parse := fun _ => some ()
  command := fun count _ => some (count + 1, [count + 1])

/-- The command `\x7b\x7d` and, in the same chunk, the start of a line. -/
def chunk (n : ℕ) : List UInt8 := [123, 125, 10] ++ List.replicate n 97

theorem transduce_runtime (bytes : List UInt8) :
    transduce runtime.decode () bytes = ((), bytes.map fun byte => UInt16.ofNat byte.toNat) := by
  induction bytes with
  | nil => rfl
  | cons _ _ ih =>
    rw [transduce, ih]
    rfl

theorem bytesAfter_replicate (high : Bool) (n : ℕ) : Units.bytesAfter high (List.replicate n 97) = n := by
  induction n generalizing high with
  | zero => rfl
  | succ n ih =>
    rw [List.replicate_succ, Units.bytesAfter, ih]
    cases high <;> rw [show Units.isLow 97 = false by decide] <;> simp [Units.unitBytes] <;> omega

theorem received_chunk (n : ℕ) : received runtime () (chunk n) = ([[123, 125]], List.replicate n 97) := by
  have hlong : cutLines newline (List.replicate n (97 : UInt16)) = ([], List.replicate n 97) := by
    refine cutLines_of_not_mem fun hmem => ?_
    exact absurd (List.eq_of_mem_replicate hmem) (by decide)
  rw [received, transduce_runtime, chunk, List.map_append, List.map_replicate, cutLines_append]
  show (_ ++ (cutLines newline (List.replicate n (97 : UInt16))).1, (cutLines newline (List.replicate n (97 : UInt16))).2) = _
  rw [hlong]
  rfl

theorem before_chunk (n : ℕ) : before runtime () (chunk n) = [[123, 125]] := by
  have hshort : ([[123, 125]] : List Units).takeWhile (fun line => ¬Over line) = [[123, 125]] := by decide
  rw [before, received_chunk]
  exact hshort

theorem not_framed {n : ℕ} (hn : maxIncompleteBufferBytes < n) : ¬Framed runtime () 0 [chunk n] := by
  rintro ⟨-, h⟩
  have hover : Over (received runtime () ([] ++ chunk n)).2 := by
    rw [List.nil_append, received_chunk, Over, Units.byteLength, bytesAfter_replicate]
    exact hn
  have hbuffer : (Client.connected (ρ := ℕ) () 0).buffer = (received runtime () []).2 := rfl
  obtain ⟨_, -, hdata⟩ := Client.data_of_open runtime rfl rfl rfl hbuffer (chunk n)
  have hrun : (Client.run runtime () 0 [chunk n]).session.log = [.refused .incompleteTooLarge] := by
    show ((Client.connected () 0).data runtime (chunk n)).session.log = _
    rw [hdata, if_pos hover]
    rfl
  rw [List.flatten_singleton, before_chunk, hrun] at h
  obtain ⟨_, hrest⟩ := h
  have hlog : (serve runtime 0 [[123, 125]]).log = [.handled [123, 125] [.answer 1]] := by
    rw [serve, List.foldl_cons, List.foldl_nil, Session.line_of_frame runtime (by decide) (by decide) rfl]
    rfl
  rw [hlog] at hrest
  cases hrest

end Sample

theorem frame_dropped : ¬Framed Sample.runtime () 0 [Sample.chunk (maxIncompleteBufferBytes + 1)] :=
  Sample.not_framed (Nat.lt_succ_self _)

end ControlSocket

end MayAgent
