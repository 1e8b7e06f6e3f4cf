import FileFerry.Proofs.Session.Reading

/-!
# Nothing of the input is lost in the buffer

Lines and raw bytes come from one buffer in any order, and the end of what was read raw may be given back.
`Takes` keeps the account of the bytes that were handed out. With what is pending and what the source has
still to bring they are always the whole stream (`exists_takes_useAll`), also behind reads that fail.
-/

set_option autoImplicit false

namespace FileFerry

/-- The bytes that a read brought. -/
def ReadResult.chunk : ReadResult → Bytes
  | .ok chunk => chunk
  | .error _ => []

namespace Source

/-- All bytes that are not read yet, also behind failures. -/
def toCome : Source → Bytes
  | [] => []
  | .bytes content :: rest => content ++ toCome rest
  | .failure _ :: rest => toCome rest

theorem toCome_read {n : Nat} {src rest : Source} {result : ReadResult} (h : src.read n = (result, rest)) :
    src.toCome = result.chunk ++ rest.toCome := by
  fun_induction read n src with
  | case1 | case2 =>
    cases h
    rfl
  | case3 src ih => exact ih h
  | case4 b bs src left =>
    cases h
    have hsplit : b :: bs = (b :: bs).take n ++ left := (List.take_append_drop n (b :: bs)).symm
    rw [toCome, ReadResult.chunk]
    split
    · rename_i hleft
      rw [hleft, List.append_nil] at hsplit
      rw [← hsplit]
    · rw [toCome, ← List.append_assoc, ← hsplit]

theorem toCome_readAgain {n : Nat} {src rest : Source} {result : ReadResult}
    (h : src.readAgain n = (result, rest)) : src.toCome = result.chunk ++ rest.toCome := by
  fun_induction readAgain n src with
  | case1 | case3 =>
    cases h
    rfl
  | case2 e src he ih => exact ih h
  | case4 src ih => exact ih h
  | case5 b bs src => exact toCome_read h

/-- Only the end of a stream is a read without bytes. -/
theorem readAgain_eq_end_iff {n : Nat} (hn : 0 < n) (src : Source) :
    (src.readAgain n).1 = .ok [] ↔ src.toCome = [] ∧ src.failure? = none := by
  fun_induction readAgain n src with
  | case1 => simp [toCome, failure?]
  | case2 e src he ih => rw [ih, toCome, failure?, if_pos he]
  | case3 e src he => simp [failure?, he]
  | case4 src ih => rw [ih, toCome, failure?, List.nil_append]
  | case5 b bs src =>
    obtain ⟨m, rfl⟩ := Nat.exists_eq_add_one.mpr hn
    simp [read, toCome]

end Source

namespace InputBuffer

/-! ## One use -/

/-- A line is the next stretch up to a newline, which is taken along. -/
theorem exists_line_of_readLine {b b' : InputBuffer} {src src' : Source} {content : Text}
    (h : b.readLine src = (.line content, b', src')) :
    ∃ line, newline ∉ line ∧ content = Utf8.decodeLossy (dropCarriageReturn line) ∧
      b.pending ++ src.toCome = line ++ newline :: (b'.pending ++ src'.toCome) := by
  fun_induction readLine b src with
  | case1 b src content' rest hnext =>
    cases h
    obtain ⟨line, hline, hpending, hcontent⟩ := Session.nextLine_eq_line hnext
    refine ⟨line, hline, hcontent, ?_⟩
    rw [hpending, List.append_assoc, List.cons_append]
  | case2 | case3 | case4 => cases h
  | case5 b src hnext c cs rest hread ih =>
    obtain ⟨line, hline, hcontent, hall⟩ := ih h
    refine ⟨line, hline, hcontent, ?_⟩
    rw [Source.toCome_readAgain hread, ← hall, supply, ReadResult.chunk, List.append_assoc]

/-- Without a line everything stays pending, and what was read meanwhile is behind it. -/
theorem pending_of_no_line {b b' : InputBuffer} {src src' : Source} {result : LineResult}
    (h : b.readLine src = (result, b', src')) (hnone : ∀ content, result ≠ .line content) :
    ∃ more, b'.pending = b.pending ++ more ∧ src.toCome = more ++ src'.toCome := by
  fun_induction readLine b src with
  | case1 b src content rest hnext =>
    cases h
    exact absurd rfl (hnone content)
  | case2 b src hnext =>
    cases h
    exact ⟨[], (List.append_nil _).symm, rfl⟩
  | case3 b src hnext e rest hread | case4 b src hnext rest hread =>
    cases h
    exact ⟨[], (List.append_nil _).symm, Source.toCome_readAgain hread⟩
  | case5 b src hnext c cs rest hread ih =>
    obtain ⟨more, hpending, hcome⟩ := ih h
    refine ⟨c :: cs ++ more, ?_, ?_⟩
    · rw [hpending, supply, List.append_assoc]
    · rw [Source.toCome_readAgain hread, hcome, ReadResult.chunk, List.append_assoc]

theorem readRaw_of_pending {b : InputBuffer} (h : b.pending ≠ []) (n : Nat) (src : Source) :
    b.readRaw n src = (.ok (b.pending.take n), ⟨b.pending.drop n⟩, src) := by
  rw [readRaw, if_neg h, takeRaw]

theorem readRaw_of_empty {b : InputBuffer} (h : b.pending = []) (n : Nat) (src : Source) :
    b.readRaw n src = ((src.readAgain n).1, b, (src.readAgain n).2) := by
  rw [readRaw, if_pos h]

theorem append_of_readRaw {n : Nat} {b b' : InputBuffer} {src src' : Source} {result : ReadResult}
    (h : b.readRaw n src = (result, b', src')) :
    b.pending ++ src.toCome = result.chunk ++ (b'.pending ++ src'.toCome) := by
  by_cases hnil : b.pending = []
  · rw [readRaw_of_empty hnil] at h
    cases h
    rw [hnil]
    exact Source.toCome_readAgain rfl
  · rw [readRaw_of_pending hnil] at h
    cases h
    rw [ReadResult.chunk, ← List.append_assoc, List.take_append_drop]

theorem readRaw_eq_end_iff {n : Nat} (hn : 0 < n) (b : InputBuffer) (src : Source) :
    (b.readRaw n src).1 = .ok [] ↔ b.pending ++ src.toCome = [] ∧ src.failure? = none := by
  by_cases hnil : b.pending = []
  · rw [readRaw_of_empty hnil, Source.readAgain_eq_end_iff hn, hnil, List.nil_append]
  · have htake : b.pending.take n ≠ [] := by
      rw [Ne, List.take_eq_nil_iff]
      exact not_or.mpr ⟨hn.ne', hnil⟩
    rw [readRaw_of_pending hnil]
    simp [hnil, htake]

/-- A raw read that fails leaves the buffer and every byte to come as they were. -/
theorem of_readRaw_error {n : Nat} {b b' : InputBuffer} {src src' : Source} {e : IoError}
    (h : b.readRaw n src = (.error e, b', src')) : b' = b ∧ src'.toCome = src.toCome := by
  have hall := append_of_readRaw h
  by_cases hnil : b.pending = []
  · rw [readRaw_of_empty hnil] at h
    obtain rfl : b = b' := congrArg (fun r => r.2.1) h
    exact ⟨rfl, (List.append_cancel_left hall).symm⟩
  · rw [readRaw_of_pending hnil] at h
    cases h

/-! ## Uses in any order -/

/-- A use of a buffer: for a line, for at most `n` raw bytes, or to give back the last `n` of the raw bytes
that were read just before. -/
inductive Use where
  | line
  | raw (n : Nat)
  | giveBack (n : Nat)

/-- What a use came to: the result of a read, or the bytes that were given back. -/
inductive Yield where
  | line (result : LineResult)
  | raw (result : ReadResult)
  | givenBack (bytes : Bytes)

/-- What is taken in all behind a use, when `taken` was before it. A line takes its newline along, and the carriage
return that is dropped from it; bytes that are given back are not taken any more. -/
inductive Takes : Bytes → Yield → Bytes → Prop where
  | line {line : Bytes} (taken : Bytes) (hline : newline ∉ line) :
      Takes taken (.line (.line (Utf8.decodeLossy (dropCarriageReturn line)))) (taken ++ (line ++ [newline]))
  | noLine {result : LineResult} (taken : Bytes) (hnone : ∀ content, result ≠ .line content) :
      Takes taken (.line result) taken
  | raw (taken : Bytes) (result : ReadResult) : Takes taken (.raw result) (taken ++ result.chunk)
  | givenBack (taken bytes : Bytes) : Takes (taken ++ bytes) (.givenBack bytes) taken

/-- Uses one after another. -/
inductive TakesInTurn : Bytes → List Yield → Bytes → Prop where
  | done (taken : Bytes) : TakesInTurn taken [] taken
  | next {taken taken' last : Bytes} {yield : Yield} {yields : List Yield} (first : Takes taken yield taken')
      (more : TakesInTurn taken' yields last) : TakesInTurn taken (yield :: yields) last

/-- A buffer over its source. -/
structure Intake where
  buffer : InputBuffer
  source : Source
  /-- What may be given back: what the last read brought, if it was raw, less what went back already. -/
  lent : Bytes

namespace Intake

def use (i : Intake) : Use → Yield × Intake
  | .line =>
    let (result, buffer, source) := i.buffer.readLine i.source
    (.line result, ⟨buffer, source, []⟩)
  | .raw n =>
    let (result, buffer, source) := i.buffer.readRaw n i.source
    (.raw result, ⟨buffer, source, result.chunk⟩)
  | .giveBack n =>
    let kept := i.lent.length - n
    (.givenBack (i.lent.drop kept), ⟨i.buffer.unread (i.lent.drop kept), i.source, i.lent.take kept⟩)

def useAll (i : Intake) : List Use → List Yield × Intake
  | [] => ([], i)
  | u :: uses =>
    let (yield, i) := i.use u
    let (yields, i) := i.useAll uses
    (yield :: yields, i)

/-- With `taken` all of `stream` is there, in its order, and what is lent was taken last. -/
structure Accounts (i : Intake) (taken stream : Bytes) : Prop where
  whole : taken ++ (i.buffer.pending ++ i.source.toCome) = stream
  lent : i.lent <:+ taken

theorem exists_takes_use {i : Intake} {taken stream : Bytes} (h : i.Accounts taken stream) (u : Use) :
    ∃ taken', Takes taken (i.use u).1 taken' ∧ (i.use u).2.Accounts taken' stream := by
  cases u with
  | line =>
    cases hread : i.buffer.readLine i.source with
    | mk result left =>
      obtain ⟨b', src'⟩ := left
      simp only [use, hread]
      by_cases hsome : ∃ content, result = .line content
      · obtain ⟨content, rfl⟩ := hsome
        obtain ⟨line, hline, rfl, hall⟩ := exists_line_of_readLine hread
        refine ⟨_, .line taken hline, ?_, List.nil_suffix⟩
        rw [← h.whole, hall]
        simp only [List.append_assoc, List.singleton_append]
      · have hnone := not_exists.mp hsome
        obtain ⟨more, hpending, hcome⟩ := pending_of_no_line hread hnone
        refine ⟨taken, .noLine taken hnone, ?_, List.nil_suffix⟩
        rw [← h.whole, hpending, hcome, List.append_assoc]
  | raw n =>
    cases hread : i.buffer.readRaw n i.source with
    | mk result left =>
      obtain ⟨b', src'⟩ := left
      simp only [use, hread]
      refine ⟨_, .raw taken result, ?_, List.suffix_append taken _⟩
      rw [← h.whole, append_of_readRaw hread, List.append_assoc]
  | giveBack n =>
    -- what goes back is the end of all that was taken
    obtain ⟨before, rfl⟩ := h.lent
    have hsplit : before ++ i.lent =
        before ++ i.lent.take (i.lent.length - n) ++ i.lent.drop (i.lent.length - n) := by
      rw [List.append_assoc, List.take_append_drop]
    refine ⟨before ++ i.lent.take (i.lent.length - n), ?_, ?_, List.suffix_append before _⟩
    · rw [hsplit]
      exact .givenBack _ _
    · rw [← h.whole, hsplit]
      simp only [use, unread, List.append_assoc]

theorem exists_takes_useAll {i : Intake} {taken stream : Bytes} (h : i.Accounts taken stream) (uses : List Use) :
    ∃ last, TakesInTurn taken (i.useAll uses).1 last ∧ (i.useAll uses).2.Accounts last stream := by
  induction uses generalizing i taken with
  | nil => exact ⟨taken, .done taken, h⟩
  | cons u uses ih =>
    obtain ⟨taken', hfirst, h'⟩ := exists_takes_use h u
    obtain ⟨last, hmore, hlast⟩ := ih h'
    exact ⟨last, .next hfirst hmore, hlast⟩

end Intake

/-- Whatever lines and raw bytes are read from a buffer, and whatever is given back of the latter, the bytes that
were taken, those that are pending and those that the source has still to bring are the whole stream, in its
order and each of them once. A raw read brings nothing only when all of it is taken; it leaves the source
alone while bytes are pending. Of what is pending nothing is lost to a read that brings no line or fails. -/
theorem input_is_conserved (b : InputBuffer) (src : Source) (uses : List Use) :
    let stream := b.pending ++ src.toCome
    let yields := ((⟨b, src, []⟩ : Intake).useAll uses).1
    let i := ((⟨b, src, []⟩ : Intake).useAll uses).2
    (∃ taken, TakesInTurn [] yields taken ∧ taken ++ (i.buffer.pending ++ i.source.toCome) = stream ∧
        ∀ {n}, 0 < n →
          ((i.buffer.readRaw n i.source).1 = .ok [] ↔ taken = stream ∧ i.source.failure? = none)) ∧
      (i.buffer.pending ≠ [] → ∀ n, i.buffer.readRaw n i.source =
        (.ok (i.buffer.pending.take n), ⟨i.buffer.pending.drop n⟩, i.source)) ∧
      (∀ {result b' src'}, i.buffer.readLine i.source = (result, b', src') →
        (∀ content, result ≠ .line content) →
          ∃ more, b'.pending = i.buffer.pending ++ more ∧ i.source.toCome = more ++ src'.toCome) ∧
      ∀ {n e b' src'}, i.buffer.readRaw n i.source = (.error e, b', src') →
        b' = i.buffer ∧ src'.toCome = i.source.toCome := by
  intro stream yields i
  have hfresh : (⟨b, src, []⟩ : Intake).Accounts [] stream := ⟨rfl, List.nil_suffix⟩
  obtain ⟨taken, htakes, haccounts⟩ := Intake.exists_takes_useAll hfresh uses
  refine ⟨⟨taken, htakes, haccounts.whole, ?_⟩, ?_, pending_of_no_line, of_readRaw_error⟩
  · intro n hn
    rw [readRaw_eq_end_iff hn, ← haccounts.whole, List.self_eq_append_right]
  · exact fun hpending n => readRaw_of_pending hpending n _

/-- Some raw bytes go back and are read again, and the connection breaks down on the way: while a line is
awaited, or once they are read. -/
theorem input_is_conserved_behind_reset :
    let reset : IoError := .plain .connectionReset
    let src : Source := [.bytes (Utf8.encode (text "put a\r\nFILE")), .failure (.plain .interrupted),
      .bytes (Utf8.encode (text "data")), .failure reset, .bytes (Utf8.encode (text "ls\n"))]
    let fresh : Intake := ⟨.empty, src, []⟩
    let uses := [.line, .raw 3, .giveBack 2]
    let i := (fresh.useAll uses).2
    let line := i.buffer.readLine i.source
    let j := (fresh.useAll (uses ++ [.raw 8, .raw 8])).2
    let raw := j.buffer.readRaw 8 j.source
    (∃ taken, TakesInTurn [] (fresh.useAll uses).1 taken ∧
        taken ++ (i.buffer.pending ++ i.source.toCome) = src.toCome ∧
        ((i.buffer.readRaw 8 i.source).1 = .ok [] ↔ taken = src.toCome ∧ i.source.failure? = none)) ∧
      i.buffer.readRaw 8 i.source = (.ok (Utf8.encode (text "ILE")), .empty, i.source) ∧
      line.1 = .failed reset ∧
      (∃ more, line.2.1.pending = i.buffer.pending ++ more ∧ i.source.toCome = more ++ line.2.2.toCome) ∧
      raw.1 = .error reset ∧ raw.2.1 = j.buffer ∧ raw.2.2.toCome = j.source.toCome := by
  intro reset src fresh uses i line j raw
  have hpending : i.buffer.pending = Utf8.encode (text "ILE") := by decide +kernel
  have hsome : i.buffer.pending ≠ [] := by
    rw [hpending]
    decide +kernel
  have hline : line.1 = .failed reset := by decide +kernel
  have hraw : raw.1 = .error reset := by decide +kernel
  have hnone (content : Text) : line.1 ≠ .line content := by simp [hline]
  obtain ⟨⟨taken, htakes, hwhole, hend⟩, hserved, hkept, -⟩ := input_is_conserved .empty src uses
  obtain ⟨-, -, -, hfails⟩ := input_is_conserved .empty src (uses ++ [.raw 8, .raw 8])
  refine ⟨⟨taken, htakes, hwhole, hend (by decide)⟩, ?_, hline, hkept rfl hnone, hraw, hfails (Prod.ext hraw rfl)⟩
  have hread := hserved hsome 8
  rw [hpending] at hread
  exact hread

end InputBuffer

end FileFerry
