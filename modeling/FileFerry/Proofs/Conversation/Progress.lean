import FileFerry.Proofs.Conversation.LineLimit
import FileFerry.Proofs.Session.Intake
import Mathlib.Data.Prod.Lex
import Mathlib.Order.Monotone.Basic
import Mathlib.Order.WellFounded

/-!
# A session comes to its end

No step adds to the bytes that are pending or not delivered yet. A line takes at least its newline from
them, and so does a read of an upload: what it gives back after the marker is less than it brought, as
part of the marker must have come with it. A step that leaves them as they are reads, sends a chunk of a
file, or ends the session; so no session goes on for ever (`toDo_go_lt`), whatever is cancelled and
however the served files change meanwhile.
-/

set_option autoImplicit false

namespace FileFerry

/-- How many bytes a read brought. -/
def ReadResult.length : ReadResult → Nat
  | .ok chunk => List.length chunk
  | .error _ => 0

theorem ReadResult.length_chunk (result : ReadResult) : result.chunk.length = result.length := by
  cases result <;> rfl

namespace Source

/-- How many bytes are not delivered yet, also behind failures. -/
def undelivered : Source → Nat
  | [] => 0
  | .bytes content :: rest => content.length + undelivered rest
  | .failure _ :: rest => undelivered rest

theorem undelivered_eq_length_toCome (src : Source) : src.undelivered = src.toCome.length := by
  fun_induction undelivered src with
  | case1 => rfl
  | case2 content rest ih => rw [toCome, List.length_append, ih]
  | case3 e rest ih => rw [toCome, ih]

theorem undelivered_read {n : Nat} {src rest : Source} {result : ReadResult}
    (h : src.read n = (result, rest)) : result.length + rest.undelivered = src.undelivered := by
  rw [undelivered_eq_length_toCome src, toCome_read h, List.length_append, ReadResult.length_chunk,
    undelivered_eq_length_toCome]

end Source

namespace InputBuffer

theorem readLine_of_cut {b : InputBuffer} {line rest : Bytes} (h : cutAtNewline? b.pending = some (line, rest))
    (src : Source) :
    b.readLine src = (.line (Utf8.decodeLossy (dropCarriageReturn line)), ⟨rest⟩, src) := by
  rw [readLine, nextLine, h]

/-- A line takes its newline along. -/
theorem length_readLine_lt {b b' : InputBuffer} {src src' : Source} {content : Text}
    (h : b.readLine src = (.line content, b', src')) :
    b'.pending.length + src'.undelivered < b.pending.length + src.undelivered := by
  obtain ⟨line, -, -, hall⟩ := exists_line_of_readLine h
  have hlen := congrArg List.length hall
  simp only [List.length_append, List.length_cons, ← Source.undelivered_eq_length_toCome] at hlen
  omega

theorem length_readRaw {n : Nat} {b b' : InputBuffer} {src src' : Source} {result : ReadResult}
    (h : b.readRaw n src = (result, b', src')) :
    result.length + b'.pending.length + src'.undelivered = b.pending.length + src.undelivered := by
  have hlen := congrArg List.length (append_of_readRaw h)
  simp only [List.length_append, ReadResult.length_chunk, ← Source.undelivered_eq_length_toCome] at hlen
  omega

/-- The bytes that were read raw are what is taken when they are given back. -/
theorem takeRaw_unread {n : Nat} {b b' : InputBuffer} {src src' : Source} {chunk : Bytes}
    (h : b.readRaw n src = (.ok chunk, b', src')) : (b'.unread chunk).takeRaw n = (chunk, b') := by
  unfold readRaw at h
  split at h
  · rename_i hnil
    cases hread : src.readAgain n with
    | mk brought rest =>
      rw [hread] at h
      cases h
      have hlen := Source.length_le_of_readAgain hread
      cases b
      cases hnil
      simp only [unread, takeRaw, List.append_nil, List.take_of_length_le hlen, List.drop_eq_nil_of_le hlen]
  · cases h
    simp only [unread, takeRaw, List.take_append_drop]

end InputBuffer

variable {γ ω : Type} [Gateway γ] [Writer ω]

/-- What a session that receives an upload does with the result of a raw read. -/
def Session.hearRaw (s : Session γ ω) (u : Upload γ) : ReadResult → Session γ ω
  | .ok (b :: bs) => (s.withInput (s.input.unread (b :: bs))).receiveChunk u
  | .ok [] | .error _ => s.lose

namespace Conversation

/-- The bytes that the session has received and not used yet, and those that are still to come. -/
def unprocessed (c : Conversation γ ω) : Nat := c.session.input.pending.length + c.source.undelivered

/-! ## Bytes -/

theorem unprocessed_go_le (c : Conversation γ ω) : c.go.unprocessed ≤ c.unprocessed := by
  by_cases hclosed : c.session.isClosed = true
  · rw [go_of_closed hclosed]
  · cases hstep : c.session.advance? with
    | some s =>
      rw [go_of_advance? hstep]
      exact Nat.add_le_add_right (Session.length_pending_advance? hstep) _
    | none =>
      cases hread : c.source.read c.session.wants with
      | mk result rest =>
        rw [go_of_waits hstep (Bool.eq_false_iff.mpr hclosed) hread]
        have hpending : (c.session.hear result).input.pending.length ≤
            c.session.input.pending.length + result.length := by
          apply Session.length_pending_hear
          rintro chunk rfl
          exact Nat.le_refl _
        have hbrought := Source.undelivered_read hread
        simp only [unprocessed]
        omega

theorem unprocessed_move_le (c : Conversation γ ω) (m : Move γ) : (c.move m).unprocessed ≤ c.unprocessed := by
  cases m with
  | go => exact unprocessed_go_le c
  | cancel | change => exact Nat.le_refl _

theorem unprocessed_after_le (c : Conversation γ ω) (moves : List (Move γ)) :
    (c.after moves).unprocessed ≤ c.unprocessed := by
  induction moves generalizing c with
  | nil => exact Nat.le_refl _
  | cons m moves ih => exact (ih (c.move m)).trans (unprocessed_move_le c m)

theorem unprocessed_readLine_lt {s : Session γ ω} {src src' : Source} {content : Text} {b' : InputBuffer}
    (h : s.input.readLine src = (.line content, b', src')) :
    (⟨(s.withInput b').handleLine content, src'⟩ : Conversation γ ω).unprocessed <
      (⟨s, src⟩ : Conversation γ ω).unprocessed := by
  have hlt := InputBuffer.length_readLine_lt h
  rw [unprocessed, Session.input_handleLine]
  exact hlt

theorem unprocessed_readRaw_lt {s : Session γ ω} {u : Upload γ} {src src' : Source} {chunk : Bytes}
    {b' : InputBuffer} (h : s.input.readRaw chunkSize src = (.ok chunk, b', src')) (hne : chunk ≠ []) :
    (⟨(s.withInput b').hearRaw u (.ok chunk), src'⟩ : Conversation γ ω).unprocessed <
      (⟨s, src⟩ : Conversation γ ω).unprocessed := by
  obtain ⟨b, bs, rfl⟩ := List.exists_cons_of_ne_nil hne
  have hbrought := InputBuffer.length_readRaw h
  have hlt := Session.length_input_receiveChunk_lt (s.withInput (b'.unread (b :: bs))) u (by
    simp [Session.withInput, InputBuffer.unread])
  simp only [Session.withInput, InputBuffer.unread, List.length_append] at hlt
  simp only [unprocessed, Session.hearRaw, Session.withInput, InputBuffer.unread, ReadResult.length] at *
  omega

/-- What is given back after the marker is less than what was read. -/
theorem length_unread_lt {s : Session γ ω} {u : Upload γ} {src src' : Source} {chunk payload trailing : Bytes}
    {b' : InputBuffer} {scanner : Scanner} (h : s.input.readRaw chunkSize src = (.ok chunk, b', src'))
    (hfeed : u.reception.scanner.feed chunk = (.complete payload trailing, scanner)) :
    let t := (s.withInput b').hearRaw u (.ok chunk)
    t.phase = .command ∧ t.input = b'.unread trailing ∧ trailing.length < chunk.length := by
  have hlt := Scanner.length_trailing_lt hfeed
  cases chunk with
  | nil => exact absurd hlt (Nat.not_lt_zero _)
  | cons b bs =>
    have htake := InputBuffer.takeRaw_unread h
    have hchunk : (b'.unread (b :: bs)).pending.take chunkSize = b :: bs := congrArg Prod.fst htake
    have hrest : ⟨(b'.unread (b :: bs)).pending.drop chunkSize⟩ = b' := congrArg Prod.snd htake
    have hinput : ((s.withInput b').withInput (b'.unread (b :: bs))).input = b'.unread (b :: bs) := rfl
    intro t
    have ht : t = ((s.withInput b').withInput (b'.unread (b :: bs))).receiveChunk u := rfl
    rw [Session.receiveChunk_of_complete (by rw [hinput, hchunk]; exact hfeed)] at ht
    refine ⟨?_, ?_, hlt⟩
    · rw [ht, Session.phase_endPayload]
    · rw [ht, Session.input_endPayload, hinput]
      change InputBuffer.unread ⟨(b'.unread (b :: bs)).pending.drop chunkSize⟩ trailing = _
      rw [hrest]

/-- A session that receives an upload does what the next raw read says. -/
theorem goesTo_readRaw {s : Session γ ω} {u : Upload γ} (hphase : s.phase = .receiving u)
    {src src' : Source} {result : ReadResult} {b' : InputBuffer}
    (hread : s.input.readRaw chunkSize src = (result, b', src')) :
    (⟨s, src⟩ : Conversation γ ω).GoesTo ⟨(s.withInput b').hearRaw u result, src'⟩ := by
  have hopen : s.isClosed = false := by simp [Session.isClosed, hphase]
  have htaken {t : Session γ ω} (ht : t.phase = .receiving u) (hne : t.input.pending ≠ []) (rest : Source) :
      (⟨t, rest⟩ : Conversation γ ω).GoesTo ⟨t.receiveChunk u, rest⟩ := by
    have hstep : t.advance? = some (t.receiveChunk u) := by simp [Session.advance?, ht, hne]
    apply GoesTo.head
    rw [go_of_advance? hstep]
    exact .refl _
  unfold InputBuffer.readRaw at hread
  split at hread
  · rename_i hnil
    have hwaits : s.advance? = none := by simp [Session.advance?, hphase, hnil]
    have hwants : s.wants = chunkSize := by simp [Session.wants, hphase]
    cases hagain : src.readAgain chunkSize with
    | mk brought rest =>
      rw [hagain] at hread
      cases hread
      rw [← hwants] at hagain
      have hgo := (goesTo_readAgain hwaits hopen hagain).head
      rcases result with e | _ | ⟨b, bs⟩
      · have hlost : s.hear (.error e) = s.lose := by
          simp [Session.hear, Session.receive, hopen, Source.isInterrupted_of_readAgain_error hagain]
        rwa [hlost] at hgo
      · have hlost : s.hear (.ok []) = s.lose := Session.receive_end s
        rwa [hlost] at hgo
      · have hheard : s.hear (.ok (b :: bs)) = s.withInput (s.input.unread (b :: bs)) := by
          simp [Session.hear, Session.withInput, InputBuffer.supply, InputBuffer.unread, hnil]
        have hne : (s.withInput (s.input.unread (b :: bs))).input.pending ≠ [] := by
          simp [Session.withInput, InputBuffer.unread]
        rw [hheard] at hgo
        exact hgo.trans (htaken (t := s.withInput (s.input.unread (b :: bs))) hphase hne src')
  · rename_i hne
    cases hread
    have htake : s.input.pending.take chunkSize ≠ [] := by
      simpa [chunkSize] using hne
    obtain ⟨b, bs, hchunk⟩ := List.exists_cons_of_ne_nil htake
    have hsame : (s.withInput ⟨s.input.pending.drop chunkSize⟩).hearRaw u
        (.ok (s.input.pending.take chunkSize)) = s.receiveChunk u := by
      rw [hchunk, Session.hearRaw, ← hchunk]
      simp only [Session.withInput, InputBuffer.unread, List.take_append_drop]
    rw [hsame]
    exact htaken hphase hne src

/-! ## Steps -/

/-- What is left to be done, in an order in which nothing goes on for ever: bytes to be read count twice, as
they are pending before they are used, and what is left of a file to be sent counts only behind all that. -/
def toDo (c : Conversation γ ω) : Nat ×ₗ Nat :=
  toLex (2 * c.source.size + c.session.unused, c.session.unsent)

/-- A step that is not the last one leaves less to be done. -/
theorem toDo_go_lt {c : Conversation γ ω} (hopen : c.session.isClosed = false) : c.go.toDo < c.toDo := by
  cases hstep : c.session.advance? with
  | some s =>
    rw [go_of_advance? hstep, toDo, toDo, Prod.Lex.toLex_lt_toLex]
    rcases Prod.lex_def.mp (Session.backlog_advance?_lt hstep) with hlt | ⟨heq, hlt⟩
    · exact .inl (Nat.add_lt_add_left hlt _)
    · exact .inr ⟨congrArg (2 * c.source.size + ·) heq, hlt⟩
  | none =>
    cases hread : c.source.read c.session.wants with
    | mk result rest =>
      rw [go_of_waits hstep hopen hread, toDo, toDo, Prod.Lex.toLex_lt_toLex]
      left
      have hheard := Session.unused_hear hopen result
      change 2 * rest.size + (c.session.hear result).unused < 2 * c.source.size + c.session.unused
      rcases result with e | _ | ⟨b, bs⟩
      · have hsmaller := Source.size_lt_of_read_error hread
        simp only at hheard
        omega
      · have hsmaller := Source.size_read_add_length_le hread
        simp only at hheard
        omega
      · have hsmaller := Source.size_read_add_length_le hread
        simp only [List.length_cons] at hheard hsmaller
        omega

theorem toDo_move_le (c : Conversation γ ω) (m : Move γ) : (c.move m).toDo ≤ c.toDo := by
  cases m with
  | go =>
    by_cases hclosed : c.session.isClosed = true
    · exact (congrArg toDo (go_of_closed hclosed)).le
    · exact (toDo_go_lt (Bool.eq_false_iff.mpr hclosed)).le
  | cancel | change => exact le_refl _

/-- A session that goes on again and again ends, whatever happens between its steps. -/
theorem exists_closed (c : Conversation γ ω) {schedule : Nat → Move γ}
    (hgoes : ∀ n, ∃ m, n ≤ m ∧ schedule m = .go) :
    ∃ n, (c.after ((List.range n).map schedule)).session.isClosed = true := by
  by_contra hnever
  let state (n : Nat) : Conversation γ ω := c.after ((List.range n).map schedule)
  have hopen (n : Nat) : (state n).session.isClosed = false :=
    Bool.eq_false_iff.mpr fun hclosed => hnever ⟨n, hclosed⟩
  have hnext (n : Nat) : state (n + 1) = (state n).move (schedule n) := by
    simp only [state, List.range_succ, List.map_append, List.map_singleton, after_concat]
  have hanti : Antitone fun n => (state n).toDo :=
    antitone_nat_of_succ_le fun n => by
      rw [hnext]
      exact toDo_move_le _ _
  -- from the state with the least to do the session could not go on
  obtain ⟨m, hle, hgo⟩ := hgoes (Function.argmin fun n => (state n).toDo)
  have hless : (state (m + 1)).toDo < (state (Function.argmin fun n => (state n).toDo)).toDo := by
    rw [hnext, hgo]
    exact (toDo_go_lt (hopen m)).trans_le (hanti hle)
  exact Function.not_lt_argmin (fun n => (state n).toDo) (m + 1) hless

/-! ## A whole run -/

theorem run_of_closed {s : Session γ ω} (h : s.isClosed = true) (src : Source) : s.run src = s := by
  have hphase := Session.phase_of_isClosed h
  rw [Session.run, Session.foldl_take_of_phase_closed hphase, Session.receive_of_phase_closed hphase]

theorem isClosed_run (s : Session γ ω) (src : Source) : (s.run src).isClosed = true := by
  rw [Session.run, Session.receive_end]
  exact Session.isClosed_lose _

/-- A whole run is where steps alone lead. -/
theorem exists_goesTo_run {s : Session γ ω} (h : s.advance? = none) (src : Source) :
    ∃ t, (⟨s, src⟩ : Conversation γ ω).GoesTo t ∧ t.session = s.run src := by
  induction src generalizing s with
  | nil =>
    by_cases hclosed : s.isClosed = true
    · exact ⟨_, .refl _, (run_of_closed hclosed []).symm⟩
    · have hend : Source.read s.wants [] = (.ok [], []) := rfl
      exact ⟨_, goesTo_receive h (Bool.eq_false_iff.mpr hclosed) hend, rfl⟩
  | cons a src ih =>
    by_cases hclosed : s.isClosed = true
    · exact ⟨_, .refl _, (run_of_closed hclosed (a :: src)).symm⟩
    have hopen := Bool.eq_false_iff.mpr hclosed
    obtain ⟨t, hgo, hrun⟩ := ih (Session.advance?_take h a)
    rcases a with (_ | ⟨b, bs⟩) | e
    · -- a read passes over a delivery without bytes
      have hsame : (⟨s, .bytes [] :: src⟩ : Conversation γ ω).go = (⟨s, src⟩ : Conversation γ ω).go := by
        rw [go_of_waits h hopen (by rw [Source.read]), go_of_waits h hopen rfl]
      have hskip : s.take (.bytes []) = s := by
        rw [Session.take, Session.deliver]
      rw [hskip] at hgo
      obtain ⟨n, rfl⟩ := hgo
      cases n with
      | zero =>
        rw [hskip] at hrun
        exact ⟨_, .refl _, hrun.trans (congrArg (Session.run · src) hskip.symm)⟩
      | succ n =>
        refine ⟨_, ⟨n + 1, rfl⟩, ?_⟩
        rw [List.replicate_succ, after_cons, move, hsame]
        exact hrun
    · obtain ⟨left, hdeliver, hclosed | rfl⟩ := goesTo_deliver h b bs src
      · refine ⟨_, hdeliver, ?_⟩
        exact (run_of_closed hclosed src).symm
      · exact ⟨t, hdeliver.trans hgo, hrun⟩
    · have hfails : Source.read s.wants (.failure e :: src) = (.error e, src) := rfl
      exact ⟨t, (goesTo_receive h hopen hfails).trans hgo, hrun⟩

/-- A line that is handled takes from the bytes still to be processed, whatever happens from then on; where
there is none the session ends. A read of an upload that brings something takes from them too, and gives
back less than it brought when it ends the upload; one that brings nothing ends the session. So a session
that goes on again and again ends, as does a whole run. -/
theorem session_makes_progress (c : Conversation γ ω) :
    (c.session.phase = .command → ∀ {result b' src'}, c.session.input.readLine c.source = (result, b', src') →
      let t : Conversation γ ω := ⟨(c.session.withInput b').hearLine result, src'⟩
      c.GoesTo t ∧
        (∀ content, result = .line content → ∀ moves, (t.after moves).unprocessed < c.unprocessed) ∧
        ((∀ content, result ≠ .line content) → t.session.isClosed = true)) ∧
      (∀ {u}, c.session.phase = .receiving u →
        ∀ {result b' src'}, c.session.input.readRaw chunkSize c.source = (result, b', src') →
          let t : Conversation γ ω := ⟨(c.session.withInput b').hearRaw u result, src'⟩
          c.GoesTo t ∧
            (∀ chunk, result = .ok chunk → chunk ≠ [] →
              (∀ moves, (t.after moves).unprocessed < c.unprocessed) ∧
                ∀ {payload trailing scanner},
                  u.reception.scanner.feed chunk = (.complete payload trailing, scanner) →
                    t.session.phase = .command ∧ t.session.input = b'.unread trailing ∧
                      trailing.length < chunk.length) ∧
            ((∀ chunk, result = .ok chunk → chunk = []) → t.session.isClosed = true)) ∧
      (∀ schedule : Nat → Move γ, (∀ n, ∃ m, n ≤ m ∧ schedule m = .go) →
        ∃ n, (c.after ((List.range n).map schedule)).session.isClosed = true) ∧
      (c.session.advance? = none →
        ∃ t, c.GoesTo t ∧ t.session = c.session.run c.source ∧ t.session.isClosed = true) := by
  refine ⟨?_, ?_, fun _ hgoes => exists_closed c hgoes, ?_⟩
  · intro hphase result b' src' hread t
    refine ⟨goesTo_readLine hphase hread, ?_, ?_⟩
    · rintro content rfl moves
      exact (unprocessed_after_le t moves).trans_lt (unprocessed_readLine_lt hread)
    · intro hnone
      cases result with
      | line content => exact absurd rfl (hnone content)
      | tooLong => rfl
      | ended | failed => exact Session.isClosed_lose _
  · intro u hphase result b' src' hread t
    refine ⟨goesTo_readRaw hphase hread, ?_, ?_⟩
    · rintro chunk rfl hne
      refine ⟨fun moves => ?_, length_unread_lt hread⟩
      exact (unprocessed_after_le t moves).trans_lt (unprocessed_readRaw_lt hread hne)
    · intro hnone
      rcases result with e | _ | ⟨b, bs⟩
      · exact Session.isClosed_lose _
      · exact Session.isClosed_lose _
      · cases hnone _ rfl
  · intro hwaits
    obtain ⟨t, hgo, hrun⟩ := exists_goesTo_run hwaits c.source
    exact ⟨t, hgo, hrun, hrun ▸ isClosed_run _ _⟩

/-- A line with more behind it, and an upload whose marker comes to its end with a command behind it. -/
theorem session_makes_progress_marker_in_parts :
    let files : ScriptedFiles := ⟨⟨[Path.slash]⟩, [], [], [], [], [], [], [], [(⟨[Path.slash]⟩, .accepting)]⟩
    let asked : Conversation ScriptedFiles ScriptedWriter :=
      ⟨⟨files, .empty, .accepting, ⟨[Path.slash]⟩, ⟨Utf8.encode (text "pwd\nls")⟩, .command⟩, []⟩
    let content := Utf8.decodeLossy (dropCarriageReturn (Utf8.encode (text "pwd")))
    let answered : Conversation ScriptedFiles ScriptedWriter :=
      ⟨(asked.session.withInput ⟨Utf8.encode (text "ls")⟩).hearLine (.line content), []⟩
    let u : Upload ScriptedFiles :=
      ⟨⟨[Path.slash]⟩, (0 : Nat), Registry.empty.start.1, ⟨⟨Utf8.encode (text "FILE_TRANS"), by decide⟩, 0, none⟩⟩
    let chunk := Utf8.encode (text "FER_END\npwd\n")
    let filling : Conversation ScriptedFiles ScriptedWriter :=
      ⟨⟨files, .empty, .accepting, ⟨[Path.slash]⟩, .empty, .receiving u⟩, [.bytes chunk]⟩
    let filled : Conversation ScriptedFiles ScriptedWriter :=
      ⟨(filling.session.withInput .empty).hearRaw u (.ok chunk), []⟩
    asked.GoesTo answered ∧ (∀ moves, (answered.after moves).unprocessed < 6) ∧
      filling.GoesTo filled ∧ (∀ moves, (filled.after moves).unprocessed < 12) ∧
      filled.session.input = ⟨Utf8.encode (text "pwd\n")⟩ ∧
      ∃ n, (filling.after ((List.range n).map fun _ => .go)).session.isClosed = true := by
  intro files asked content answered u chunk filling filled
  have hcut : cutAtNewline? asked.session.input.pending =
      some (Utf8.encode (text "pwd"), Utf8.encode (text "ls")) := by decide +kernel
  have hline : asked.session.input.readLine asked.source =
      (.line content, ⟨Utf8.encode (text "ls")⟩, []) := InputBuffer.readLine_of_cut hcut []
  have hraw : filling.session.input.readRaw chunkSize filling.source = (.ok chunk, .empty, []) := by
    rfl
  have hfeed : ∃ scanner, u.reception.scanner.feed chunk =
      (.complete [] (Utf8.encode (text "pwd\n")), scanner) := ⟨_, by rfl⟩
  obtain ⟨scanner, hfeed⟩ := hfeed
  obtain ⟨hasked, hanswered, -⟩ := (session_makes_progress asked).1 rfl hline
  obtain ⟨-, hreads, hlasts, -⟩ := session_makes_progress filling
  obtain ⟨hgo, hfilled, -⟩ := hreads rfl hraw
  obtain ⟨hless, hback⟩ := hfilled chunk rfl (by decide)
  exact ⟨hasked, hanswered _ rfl, hgo, hless, (hback hfeed).2.1, hlasts _ fun n => ⟨n, Nat.le_refl n, rfl⟩⟩

end Conversation

end FileFerry
