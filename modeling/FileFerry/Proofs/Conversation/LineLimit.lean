import FileFerry.Gateway.Scripted
import FileFerry.Proofs.Conversation.Memory

/-!
# The limit of command lines

Before each read the buffer must be below the limit; the line itself is never measured. So a line that
fits is always taken, but a longer one is refused only if a read ends between the limit and its newline
(`StaysBelow` says that none does). One read may jump over that stretch, which is why a line of up to
`maxPending` bytes is taken or refused as it is cut (`longer_line_depends_on_delivery`). A longer one
than that is always refused.
-/

set_option autoImplicit false

namespace FileFerry

namespace Source

/-- What the reads for a line bring one after another, before the stream ends or fails. -/
def lineChunks (src : Source) : List Bytes :=
  match _h : src.readAgain lineReadSize with
  | (.ok (c :: cs), rest) => (c :: cs) :: lineChunks rest
  | _ => []
termination_by src.size
decreasing_by exact size_readAgain_lt (by decide) _h

theorem lineChunks_of_readAgain {src rest : Source} {c : UInt8} {cs : Bytes}
    (h : src.readAgain lineReadSize = (.ok (c :: cs), rest)) :
    src.lineChunks = (c :: cs) :: rest.lineChunks := by
  rw [lineChunks]
  split
  · rename_i h'
    rw [h] at h'
    cases h'
    rfl
  · rename_i hnone
    exact absurd h (hnone _ _ _)

theorem content_of_no_chunk {src : Source}
    (h : ∀ c cs rest, src.readAgain lineReadSize = (.ok (c :: cs), rest) → False) : src.content = [] := by
  cases hread : src.readAgain lineReadSize with
  | mk result rest =>
    match result with
    | .error e => exact content_of_readAgain_error hread
    | .ok [] => exact content_of_readAgain_end (by decide) hread
    | .ok (c :: cs) => exact (h c cs rest hread).elim

theorem lineChunks_nil : lineChunks [] = [] := by
  rw [lineChunks]
  rfl

theorem lineChunks_bytes_nil (src : Source) : lineChunks (.bytes [] :: src) = src.lineChunks := by
  rw [lineChunks, lineChunks]
  simp only [readAgain]

theorem lineChunks_bytes {a : Bytes} (hne : a ≠ []) (src : Source) :
    lineChunks (.bytes a :: src) = a.take lineReadSize :: lineChunks (.bytes (a.drop lineReadSize) :: src) := by
  obtain ⟨b, bs, rfl⟩ := List.exists_cons_of_ne_nil hne
  have htake : (b :: bs).take lineReadSize = b :: bs.take (lineReadSize - 1) := rfl
  by_cases hleft : (b :: bs).drop lineReadSize = []
  · have hread : readAgain lineReadSize (.bytes (b :: bs) :: src) =
        (.ok (b :: bs.take (lineReadSize - 1)), src) := by
      simp only [readAgain, read, htake, if_pos hleft]
    rw [lineChunks_of_readAgain hread, hleft, htake, lineChunks_bytes_nil]
  · have hread : readAgain lineReadSize (.bytes (b :: bs) :: src) =
        (.ok (b :: bs.take (lineReadSize - 1)), .bytes ((b :: bs).drop lineReadSize) :: src) := by
      simp only [readAgain, read, htake, if_neg hleft]
    rw [lineChunks_of_readAgain hread, htake]

/-- A delivery is read in whole chunks as long as they last. -/
theorem exists_lineChunks {a : Bytes} {k : Nat} (h : k * lineReadSize ≤ a.length) (src : Source) :
    ∃ chunks, chunks <+: lineChunks (.bytes a :: src) ∧ chunks.flatten.length = k * lineReadSize := by
  induction k generalizing a with
  | zero => exact ⟨[], List.nil_prefix, by simp⟩
  | succ k ih =>
    rw [Nat.add_mul, Nat.one_mul] at h ⊢
    have hpos : 0 < lineReadSize := by decide
    have hne : a ≠ [] := by
      rintro rfl
      rw [List.length_nil] at h
      omega
    have hleft : k * lineReadSize ≤ (a.drop lineReadSize).length := by
      rw [List.length_drop]
      omega
    obtain ⟨chunks, hchunks, hlen⟩ := ih hleft
    refine ⟨a.take lineReadSize :: chunks, ?_, ?_⟩
    · rw [lineChunks_bytes hne, List.cons_prefix_cons]
      exact ⟨rfl, hchunks⟩
    · rw [List.flatten_cons, List.length_append, List.length_take, hlen]
      omega

/-- A run of reads ends within the first delivery, or goes on with the next. -/
theorem length_lineChunks_prefix {a : Bytes} {src : Source} {chunks : List Bytes}
    (h : chunks <+: lineChunks (.bytes a :: src)) :
    chunks.flatten.length ≤ a.length ∨
      ∃ more, more <+: src.lineChunks ∧ more ≠ [] ∧ chunks.flatten.length = a.length + more.flatten.length := by
  induction chunks generalizing a with
  | nil => exact .inl (Nat.zero_le _)
  | cons chunk chunks ih =>
    by_cases hne : a = []
    · subst hne
      rw [lineChunks_bytes_nil] at h
      exact .inr ⟨chunk :: chunks, h, List.cons_ne_nil _ _, (Nat.zero_add _).symm⟩
    · rw [lineChunks_bytes hne, List.cons_prefix_cons] at h
      obtain ⟨rfl, hchunks⟩ := h
      rcases ih hchunks with hlen | ⟨more, hmore, hnil, hlen⟩
      · refine .inl ?_
        simp only [List.flatten_cons, List.length_append, List.length_take, List.length_drop] at *
        omega
      · refine .inr ⟨more, hmore, hnil, ?_⟩
        simp only [List.flatten_cons, List.length_append, List.length_take, List.length_drop] at *
        omega

end Source

namespace InputBuffer

/-- Every read that leaves the first `n` bytes and no more has the buffer below the limit. -/
def StaysBelow (b : InputBuffer) (src : Source) (n : Nat) : Prop :=
  ∀ chunks, chunks <+: src.lineChunks → b.pending.length + chunks.flatten.length ≤ n →
    b.pending.length + chunks.flatten.length < maxLineBytes

theorem staysBelow_of_lt {n : Nat} (h : n < maxLineBytes) (b : InputBuffer) (src : Source) :
    b.StaysBelow src n :=
  fun _ _ hle => lt_of_le_of_lt hle h

theorem staysBelow_of_length_lt {b : InputBuffer} {n : Nat} (h : n < b.pending.length) (src : Source) :
    b.StaysBelow src n := by
  intro chunks _ hle
  omega

theorem not_staysBelow {b : InputBuffer} {n : Nat} (hle : b.pending.length ≤ n)
    (hlong : maxLineBytes ≤ b.pending.length) (src : Source) : ¬ b.StaysBelow src n := by
  intro h
  have hbelow := h [] List.nil_prefix hle
  rw [List.flatten_nil, List.length_nil] at hbelow
  omega

theorem staysBelow_supply {b : InputBuffer} {src rest : Source} {c : UInt8} {cs : Bytes} {n : Nat}
    (hbelow : b.pending.length < maxLineBytes) (hread : src.readAgain lineReadSize = (.ok (c :: cs), rest)) :
    (b.supply (c :: cs)).StaysBelow rest n ↔ b.StaysBelow src n := by
  have hlen (chunks : List Bytes) : (b.supply (c :: cs)).pending.length + chunks.flatten.length =
      b.pending.length + ((c :: cs) :: chunks).flatten.length := by
    simp only [supply, List.flatten_cons, List.length_append, Nat.add_assoc]
  constructor
  · intro h chunks hchunks hle
    cases chunks with
    | nil => exact hbelow
    | cons chunk chunks =>
      rw [Source.lineChunks_of_readAgain hread, List.cons_prefix_cons] at hchunks
      obtain ⟨rfl, hchunks⟩ := hchunks
      rw [← hlen] at hle ⊢
      exact h chunks hchunks hle
  · intro h chunks hchunks hle
    rw [hlen] at hle ⊢
    apply h _ _ hle
    rw [Source.lineChunks_of_readAgain hread, List.cons_prefix_cons]
    exact ⟨rfl, hchunks⟩

/-- Beyond what may be pending no read can jump from below the limit. -/
theorem not_staysBelow_of_long {b : InputBuffer} {src : Source} {n : Nat}
    (hpending : b.pending.length ≤ maxPending) (hlong : maxPending ≤ n)
    (hall : n < (b.pending ++ src.content).length) : ¬ b.StaysBelow src n := by
  fun_induction Source.lineChunks src generalizing b with
  | case1 src c cs rest hread ih =>
    by_cases hbelow : b.pending.length < maxLineBytes
    · have hchunk := Source.length_le_of_readAgain hread
      rw [← staysBelow_supply hbelow hread]
      apply ih
      · simp only [supply, maxPending, List.length_append] at *
        omega
      · rwa [supply, List.append_assoc, ← Source.content_of_readAgain_ok hread]
    · exact not_staysBelow (hpending.trans hlong) (Nat.le_of_not_lt hbelow) src
  | case2 src hnone =>
    rw [Source.content_of_no_chunk hnone, List.append_nil] at hall
    omega

/-! ## Reading a line -/

/-- With a newline before it a read for a line ends with that line, or with the limit. -/
theorem readLine_of_newline {b : InputBuffer} {src : Source} {line rest : Bytes} (hline : newline ∉ line)
    (hall : b.pending ++ src.content = line ++ newline :: rest) :
    (b.StaysBelow src line.length ∧ ∃ b' src',
      b.readLine src = (.line (Utf8.decodeLossy (dropCarriageReturn line)), b', src') ∧
        b'.pending ++ src'.content = rest) ∨
      ¬ b.StaysBelow src line.length ∧ ∃ b' src', b.readLine src = (.tooLong, b', src') := by
  have hcut := cutAtNewline?_line hline rest
  rw [← hall] at hcut
  fun_induction readLine b src with
  | case1 b src content after hnext =>
    obtain ⟨line', hline', hpending, rfl⟩ := Session.nextLine_eq_line hnext
    have hcut' := cutAtNewline?_append (cutAtNewline?_line hline' after.pending) src.content
    rw [← hpending, hcut] at hcut'
    cases hcut'
    refine .inl ⟨staysBelow_of_length_lt ?_ src, after, src, rfl, rfl⟩
    rw [hpending, List.length_append, List.length_cons]
    omega
  | case2 b src hnext =>
    obtain ⟨hpending, hlong⟩ := Session.nextLine_eq_tooLong hnext
    exact .inr ⟨not_staysBelow (length_le_of_cutAtNewline? hpending hcut) hlong src, b, src, rfl⟩
  | case3 b src hnext e rest' hread =>
    have hnone := cutAtNewline?_eq_none_iff.mpr (Session.nextLine_eq_incomplete hnext).1
    rw [Source.content_of_readAgain_error hread, List.append_nil, hnone] at hcut
    cases hcut
  | case4 b src hnext rest' hread =>
    have hnone := cutAtNewline?_eq_none_iff.mpr (Session.nextLine_eq_incomplete hnext).1
    rw [Source.content_of_readAgain_end (by decide) hread, List.append_nil, hnone] at hcut
    cases hcut
  | case5 b src hnext c cs rest' hread ih =>
    rw [← staysBelow_supply (Session.nextLine_eq_incomplete hnext).2 hread]
    rw [Source.content_of_readAgain_ok hread, ← List.append_assoc] at hall hcut
    exact ih hall hcut

/-- Without a newline there is no line, and the limit is found. -/
theorem readLine_of_no_newline {b : InputBuffer} {src : Source}
    (hall : newline ∉ b.pending ++ src.content) :
    (∀ content, (b.readLine src).1 ≠ .line content) ∧
      ((b.readLine src).1 = .tooLong ↔ maxLineBytes ≤ (b.pending ++ src.content).length) := by
  fun_induction readLine b src with
  | case1 b src content after hnext =>
    obtain ⟨line, -, hpending, -⟩ := Session.nextLine_eq_line hnext
    simp [hpending] at hall
  | case2 b src hnext =>
    obtain ⟨-, hlong⟩ := Session.nextLine_eq_tooLong hnext
    refine ⟨fun _ => LineResult.noConfusion, fun _ => ?_, fun _ => rfl⟩
    rw [List.length_append]
    omega
  | case3 b src hnext e rest hread =>
    have hshort := (Session.nextLine_eq_incomplete hnext).2
    refine ⟨fun _ => LineResult.noConfusion, LineResult.noConfusion, fun hlong => ?_⟩
    rw [Source.content_of_readAgain_error hread, List.append_nil] at hlong
    omega
  | case4 b src hnext rest hread =>
    have hshort := (Session.nextLine_eq_incomplete hnext).2
    refine ⟨fun _ => LineResult.noConfusion, LineResult.noConfusion, fun hlong => ?_⟩
    rw [Source.content_of_readAgain_end (by decide) hread, List.append_nil] at hlong
    omega
  | case5 b src hnext c cs rest hread ih =>
    rw [Source.content_of_readAgain_ok hread, ← List.append_assoc] at hall ⊢
    exact ih hall

/-- In one delivery a read ends just at the limit. -/
theorem not_staysBelow_of_one_delivery {a : Bytes} {n : Nat} (ha : maxLineBytes ≤ a.length) (hn : maxLineBytes ≤ n) :
    ¬ empty.StaysBelow [.bytes a] n := by
  intro hbelow
  have hlimit : 16 * lineReadSize = maxLineBytes := rfl
  rw [← hlimit] at ha
  obtain ⟨chunks, hchunks, hlen⟩ := Source.exists_lineChunks ha []
  have hempty : empty.pending.length + chunks.flatten.length = maxLineBytes := by
    rw [hlen, hlimit]
    exact Nat.zero_add _
  have h := hbelow chunks hchunks
  rw [hempty] at h
  exact Nat.lt_irrefl _ (h hn)

/-- In two parts, the second of which is read at once, no read ends between the limit and the last byte. -/
theorem staysBelow_of_two_parts {a b : Bytes} {n : Nat} (ha : a.length < maxLineBytes) (hne : b ≠ [])
    (hb : b.length ≤ lineReadSize) (hn : n < a.length + b.length) : empty.StaysBelow [.bytes a, .bytes b] n := by
  intro chunks hchunks hle
  have hempty : empty.pending.length + chunks.flatten.length = chunks.flatten.length := Nat.zero_add _
  rw [hempty] at hle ⊢
  rcases Source.length_lineChunks_prefix hchunks with hlen | ⟨more, hmore, hnil, hlen⟩
  · exact Nat.lt_of_le_of_lt hlen ha
  · -- the next read brings all of the second part
    rw [Source.lineChunks_bytes hne, List.drop_eq_nil_of_le hb, List.take_of_length_le hb,
      Source.lineChunks_bytes_nil, Source.lineChunks_nil] at hmore
    obtain ⟨_, rfl, hnone⟩ := (List.prefix_cons_iff.mp hmore).resolve_left hnil
    obtain rfl := List.prefix_nil.mp hnone
    rw [List.flatten_singleton] at hlen
    omega

/-- A line that is too long by less than a read is refused in one delivery, and taken where a read begins
right below the limit. -/
theorem longer_line_depends_on_delivery {line : Bytes} (hline : newline ∉ line)
    (hlong : maxLineBytes < line.length + 1) (hshort : line.length + 1 ≤ maxPending) :
    let stream := line ++ [newline]
    let cut : Source := [.bytes (stream.take (maxLineBytes - 1)), .bytes (stream.drop (maxLineBytes - 1))]
    (empty.readLine [.bytes stream]).1 = .tooLong ∧ cut.content = stream ∧
      (empty.readLine cut).1 = .line (Utf8.decodeLossy (dropCarriageReturn line)) := by
  intro stream cut
  have hstream : stream.length = line.length + 1 := List.length_append
  have hcut : cut.content = stream := by
    simp only [cut, Source.content, List.append_nil, List.take_append_drop]
  refine ⟨?_, hcut, ?_⟩
  · have hnot : ¬ empty.StaysBelow [.bytes stream] line.length :=
      not_staysBelow_of_one_delivery (by omega) (by omega)
    have hall : empty.pending ++ Source.content [.bytes stream] = line ++ newline :: [] := List.append_nil _
    obtain ⟨-, b', src', hread⟩ := (readLine_of_newline hline hall).resolve_left fun h => hnot h.1
    rw [hread]
  · have hfirst : (stream.take (maxLineBytes - 1)).length = maxLineBytes - 1 := by
      rw [List.length_take]
      omega
    have hlast : (stream.drop (maxLineBytes - 1)).length = line.length + 1 - (maxLineBytes - 1) := by
      rw [List.length_drop, hstream]
    have hpositive : 0 < maxLineBytes := by decide
    have hbelow : empty.StaysBelow cut line.length := by
      rw [maxPending] at hshort
      apply staysBelow_of_two_parts
      · omega
      · rw [← List.length_pos_iff]
        omega
      · omega
      · omega
    have hall : empty.pending ++ cut.content = line ++ newline :: [] := hcut
    obtain ⟨-, b', src', hread, -⟩ := (readLine_of_newline hline hall).resolve_right fun h => h.1 hbelow
    rw [hread]

/-- One byte more than the limit allows, taken when the read before its last two bytes ends there. -/
theorem line_above_limit_is_taken :
    let line : Bytes := List.replicate maxLineBytes 97
    let cut : Source := [.bytes (List.replicate (maxLineBytes - 1) 97), .bytes [97, newline]]
    newline ∉ line ∧ maxLineBytes < (line ++ [newline]).length ∧ cut.content = line ++ [newline] ∧
      (empty.readLine cut).1 = .line (Utf8.decodeLossy (dropCarriageReturn line)) ∧
      (empty.readLine [.bytes (line ++ [newline])]).1 = .tooLong := by
  intro line cut
  have hline : newline ∉ line := by
    intro hmem
    exact absurd (List.eq_of_mem_replicate hmem) (by decide)
  have hlength : line.length = maxLineBytes := List.length_replicate
  have hlong : maxLineBytes < line.length + 1 := by omega
  have hshort : line.length + 1 ≤ maxPending := by
    rw [hlength]
    decide
  obtain ⟨hrefused, hcontent, htaken⟩ := longer_line_depends_on_delivery hline hlong hshort
  have hsplit : line ++ [newline] = List.replicate (maxLineBytes - 1) 97 ++ [97, newline] := by
    have hlast : line = List.replicate (maxLineBytes - 1) 97 ++ [97] := List.replicate_succ'
    rw [hlast, List.append_assoc]
    rfl
  have htake : (line ++ [newline]).take (maxLineBytes - 1) = List.replicate (maxLineBytes - 1) 97 := by
    rw [hsplit]
    exact List.take_left' List.length_replicate
  have hdrop : (line ++ [newline]).drop (maxLineBytes - 1) = [97, newline] := by
    rw [hsplit]
    exact List.drop_left' List.length_replicate
  rw [htake, hdrop] at hcontent htaken
  refine ⟨hline, ?_, hcontent, htaken, hrefused⟩
  rw [List.length_append]
  exact hlong

end InputBuffer

variable {γ ω : Type} [Gateway γ] [Writer ω]

/-- What a session does with the result of a read for a line. -/
def Session.hearLine (s : Session γ ω) : InputBuffer.LineResult → Session γ ω
  | .line content => s.handleLine content
  | .tooLong => s.close
  | .ended | .failed _ => s.lose

namespace Conversation

/-- A waiting session reads until it is not interrupted any more. -/
theorem goesTo_readAgain {s : Session γ ω} (h : s.advance? = none) (hopen : s.isClosed = false)
    {src rest : Source} {result : ReadResult} (hread : src.readAgain s.wants = (result, rest)) :
    (⟨s, src⟩ : Conversation γ ω).go.GoesTo ⟨s.hear result, rest⟩ := by
  have hgo {src rest : Source} {result : ReadResult} (hread : src.read s.wants = (result, rest)) :
      (⟨s, src⟩ : Conversation γ ω).go = ⟨s.hear result, rest⟩ := go_of_waits h hopen hread
  generalize hn : s.wants = n at hread
  rw [hn] at hgo
  fun_induction Source.readAgain n src with
  | case1 =>
    cases hread
    have hend : Source.read n [] = (.ok [], []) := rfl
    rw [hgo hend]
    exact .refl _
  | case2 e src he ih =>
    have hsame : s.hear (.error e) = s := by simp [Session.hear, Session.receive, hopen, he]
    have hagain : Source.read n (.failure e :: src) = (.error e, src) := rfl
    rw [hgo hagain, hsame]
    exact (ih hread).head
  | case3 e src he =>
    cases hread
    have hfails : Source.read n (.failure e :: rest) = (.error e, rest) := rfl
    rw [hgo hfails]
    exact .refl _
  | case4 src ih =>
    have hskip : Source.read n (.bytes [] :: src) = Source.read n src := by rw [Source.read]
    have hsame : (⟨s, .bytes [] :: src⟩ : Conversation γ ω).go = (⟨s, src⟩ : Conversation γ ω).go := by
      rw [hgo hskip, hgo rfl]
    rw [hsame]
    exact ih hread
  | case5 b bs src =>
    rw [hgo hread]
    exact .refl _

/-- A session that awaits a command and has no line yet reads on. -/
theorem goesTo_hear {s : Session γ ω} (hphase : s.phase = .command) (hnext : s.input.nextLine = .incomplete)
    {src rest : Source} {result : ReadResult} (hread : src.readAgain lineReadSize = (result, rest)) :
    (⟨s, src⟩ : Conversation γ ω).GoesTo ⟨s.hear result, rest⟩ := by
  have hwaits : s.advance? = none := by simp [Session.advance?, hphase, hnext]
  have hopen : s.isClosed = false := by simp [Session.isClosed, hphase]
  have hwants : s.wants = lineReadSize := by simp [Session.wants, hphase]
  rw [← hwants] at hread
  exact (goesTo_readAgain hwaits hopen hread).head

/-- A session that awaits a command does what the next read for a line says. -/
theorem goesTo_readLine {s : Session γ ω} (hphase : s.phase = .command) {src src' : Source}
    {result : InputBuffer.LineResult} {b' : InputBuffer} (hread : s.input.readLine src = (result, b', src')) :
    (⟨s, src⟩ : Conversation γ ω).GoesTo ⟨(s.withInput b').hearLine result, src'⟩ := by
  have hopen : s.isClosed = false := by simp [Session.isClosed, hphase]
  generalize hb : s.input = b at hread
  fun_induction InputBuffer.readLine b src generalizing s with
  | case1 b src content after hnext =>
    cases hread
    rw [← hb] at hnext
    have hstep := Session.advance?_of_line hphase hnext
    apply GoesTo.head
    rw [go_of_advance? hstep]
    exact .refl _
  | case2 b src hnext =>
    cases hread
    rw [← hb] at hnext
    have hstep : s.advance? = some s.close := by simp [Session.advance?, hphase, hnext]
    apply GoesTo.head
    rw [go_of_advance? hstep, ← hb]
    exact .refl _
  | case3 b src hnext e rest hagain =>
    cases hread
    rw [← hb] at hnext ⊢
    have hlost : s.hear (.error e) = s.lose := by
      simp [Session.hear, Session.receive, hopen, Source.isInterrupted_of_readAgain_error hagain]
    have hgo := goesTo_hear hphase hnext hagain
    rwa [hlost] at hgo
  | case4 b src hnext rest hagain =>
    cases hread
    rw [← hb] at hnext ⊢
    have hlost : s.hear (.ok []) = s.lose := Session.receive_end s
    have hgo := goesTo_hear hphase hnext hagain
    rwa [hlost] at hgo
  | case5 b src hnext c cs rest hagain ih =>
    rw [← hb] at hnext
    have hheard : s.hear (.ok (c :: cs)) = s.withInput (b.supply (c :: cs)) := by
      rw [← hb]
      rfl
    have hgo := goesTo_hear hphase hnext hagain
    rw [hheard] at hgo
    exact hgo.trans (ih hphase hopen rfl hread)

/-- When a session awaits a command, a line that fits with its newline is taken, whatever was pending before it
and however it comes; one that is longer than all that may be pending is refused. In between it is refused
just if a read ends between the limit and its newline. A refused line ends the session with nothing done,
and so does the end of a stream without a newline; there the limit is exact. -/
theorem line_limit {c : Conversation γ ω} (hphase : c.session.phase = .command) :
    let b := c.session.input
    let stream := b.pending ++ c.source.content
    (∀ {line rest : Bytes}, newline ∉ line → stream = line ++ newline :: rest →
      let content := Utf8.decodeLossy (dropCarriageReturn line)
      (b.StaysBelow c.source line.length → ∃ b' src', b.readLine c.source = (.line content, b', src') ∧
          b'.pending ++ src'.content = rest ∧ c.GoesTo ⟨(c.session.withInput b').handleLine content, src'⟩) ∧
        (¬ b.StaysBelow c.source line.length → ∃ b' src', b.readLine c.source = (.tooLong, b', src') ∧
          c.GoesTo ⟨(c.session.withInput b').close, src'⟩) ∧
        ((line ++ [newline]).length ≤ maxLineBytes → b.StaysBelow c.source line.length) ∧
        (b.pending.length ≤ maxPending → maxPending < (line ++ [newline]).length →
          ¬ b.StaysBelow c.source line.length)) ∧
      (newline ∉ stream → ∃ result b' src', b.readLine c.source = (result, b', src') ∧
        (∀ content, result ≠ .line content) ∧ (result = .tooLong ↔ maxLineBytes ≤ stream.length) ∧
        c.GoesTo ⟨(c.session.withInput b').close, src'⟩) := by
  intro b stream
  constructor
  · intro line rest hline hall content
    have hlength : (line ++ [newline]).length = line.length + 1 := List.length_append
    have hread := InputBuffer.readLine_of_newline hline hall
    refine ⟨?_, ?_, ?_, ?_⟩
    · intro hbelow
      obtain ⟨-, b', src', htaken, hleft⟩ := hread.resolve_right fun h => h.1 hbelow
      exact ⟨b', src', htaken, hleft, goesTo_readLine hphase htaken⟩
    · intro hnot
      obtain ⟨-, b', src', hrefused⟩ := hread.resolve_left fun h => hnot h.1
      exact ⟨b', src', hrefused, goesTo_readLine hphase hrefused⟩
    · intro hfits
      exact InputBuffer.staysBelow_of_lt (by omega) b c.source
    · intro hpending hlong
      apply InputBuffer.not_staysBelow_of_long hpending (by omega)
      change line.length < stream.length
      rw [hall, List.length_append, List.length_cons]
      omega
  · intro hnone
    obtain ⟨hnever, hexact⟩ := InputBuffer.readLine_of_no_newline hnone
    cases hread : b.readLine c.source with
    | mk result left =>
      obtain ⟨b', src'⟩ := left
      rw [hread] at hnever hexact
      refine ⟨result, b', src', rfl, hnever, hexact, ?_⟩
      have hgo := goesTo_readLine hphase hread
      have hlose : (c.session.withInput b').lose = (c.session.withInput b').close := by
        simp only [Session.lose, Session.withInput, hphase]
      cases result with
      | line content => exact absurd rfl (hnever content)
      | tooLong => exact hgo
      | ended | failed =>
        rw [← hlose]
        exact hgo

/-- A line that comes in two parts, the first of which came with the command before it. -/
theorem line_limit_in_two_parts :
    let files : ScriptedFiles := ⟨⟨[Path.slash]⟩, [], [], [], [], [], [], [], []⟩
    let c : Conversation ScriptedFiles ScriptedWriter :=
      ⟨⟨files, .empty, .accepting, ⟨[Path.slash]⟩, ⟨Utf8.encode (text "p")⟩, .command⟩,
        [.bytes (Utf8.encode (text "wd\nls\n"))]⟩
    let line := Utf8.encode (text "pwd")
    newline ∉ line ∧ ∃ b' src', b'.pending ++ src'.content = Utf8.encode (text "ls\n") ∧
      c.GoesTo ⟨(c.session.withInput b').handleLine (Utf8.decodeLossy (dropCarriageReturn line)), src'⟩ := by
  intro files c line
  have hline : newline ∉ line := by decide
  have hall : c.session.input.pending ++ c.source.content = line ++ newline :: Utf8.encode (text "ls\n") := by
    decide +kernel
  obtain ⟨htaken, -, hfits, -⟩ := (line_limit (c := c) rfl).1 hline hall
  obtain ⟨b', src', -, hleft, hgo⟩ := htaken (hfits (by decide))
  exact ⟨hline, b', src', hleft, hgo⟩

end Conversation

end FileFerry
