import FileFerry.Proofs.Gateway.Archive
import FileFerry.Proofs.Gateway.Store
import FileFerry.Proofs.Session.Agreement
import FileFerry.Stream.Scripted

/-!
# The interpreter of a whole input

`Session.interpret` is told the whole input at once: a line goes up to the next newline, a payload
up to the first marker. On a steady gateway every delivery of an input comes to what it computes
(`run_start_eq_interpret`), as long as no line it takes is over the limit.
-/

set_option autoImplicit false

namespace FileFerry

open SteadyGateway

namespace Session

variable {γ ω : Type} [Gateway γ]

/-- A session at the end of its input, with the lines it took for commands. -/
structure Interpretation (γ ω : Type) [Gateway γ] where
  lines : List Bytes
  final : Session γ ω

def Interpretation.behind (i : Interpretation γ ω) (line : Bytes) : Interpretation γ ω :=
  ⟨line :: i.lines, i.final⟩

def isSending (s : Session γ ω) : Bool :=
  match s.phase with
  | .sending _ _ => true
  | _ => false

variable [Writer ω]

/-- A payload up to its marker, and the marker. -/
def receiveAll (s : Session γ ω) (u : Upload γ) (payload : Bytes) : Session γ ω :=
  (s.storePayload u payload).endPayload (u.store s.gateway payload).1

/-- Uses all of an input. Without another newline there is no further line, and without a marker the
upload is abandoned; then only what cannot belong to a marker was stored. -/
def interpret (s : Session γ ω) (input : Bytes) : Interpretation γ ω :=
  match _hp : s.phase with
  | .closed => ⟨[], s⟩
  | .command =>
    match _h : cutAtNewline? input with
    | none => ⟨[], s.close⟩
    | some (line, rest) =>
      ((s.handleLine (Utf8.decodeLossy (dropCarriageReturn line))).interpret rest).behind line
  | .sending entry file => (s.sendAll entry file).interpret input
  | .receiving u =>
    match _h : cutAtMarker? input with
    | none => ⟨[], (s.storePayload u (input.take (input.length - holdBack))).lose⟩
    | some (payload, rest) => (s.receiveAll u payload).interpret rest
termination_by (input.length, if s.isSending then 1 else 0)
decreasing_by
  · exact .left _ _ (length_lt_of_cutAtNewline? _h)
  · refine .right _ ?_
    simp [isSending, sendAll, unregister, _hp]
  · refine .left _ _ ?_
    have := length_of_cutAtMarker? _h
    rw [length_endMarker] at this
    omega

theorem interpret_closed {s : Session γ ω} (h : s.phase = .closed) (input : Bytes) :
    s.interpret input = ⟨[], s⟩ := by
  unfold interpret
  split <;> simp_all

theorem interpret_sending {s : Session γ ω} {entry : Guard} {file : Sending}
    (h : s.phase = .sending entry file) (input : Bytes) :
    s.interpret input = (s.sendAll entry file).interpret input := by
  rw [interpret]
  split <;> simp_all

theorem interpret_line {s : Session γ ω} (h : s.phase = .command) {input line rest : Bytes}
    (hcut : cutAtNewline? input = some (line, rest)) :
    s.interpret input =
      ((s.handleLine (Utf8.decodeLossy (dropCarriageReturn line))).interpret rest).behind line := by
  rw [interpret]
  split
  · simp_all
  · split
    · simp_all
    · rename_i line' rest' hcut'
      rw [hcut] at hcut'
      cases hcut'
      rfl
  · simp_all
  · simp_all

theorem interpret_last_line {s : Session γ ω} (h : s.phase = .command) {input : Bytes}
    (hcut : cutAtNewline? input = none) : s.interpret input = ⟨[], s.close⟩ := by
  rw [interpret]
  split
  · simp_all
  · split
    · rfl
    · simp_all
  · simp_all
  · simp_all

theorem interpret_payload {s : Session γ ω} {u : Upload γ} (h : s.phase = .receiving u)
    {input payload rest : Bytes} (hcut : cutAtMarker? input = some (payload, rest)) :
    s.interpret input = (s.receiveAll u payload).interpret rest := by
  rw [interpret]
  split
  · simp_all
  · simp_all
  · simp_all
  · rename_i u' hu'
    rw [h] at hu'
    cases hu'
    split
    · simp_all
    · rename_i payload' rest' hcut'
      rw [hcut] at hcut'
      cases hcut'
      rfl

theorem interpret_last_payload {s : Session γ ω} {u : Upload γ} (h : s.phase = .receiving u)
    {input : Bytes} (hcut : cutAtMarker? input = none) :
    s.interpret input = ⟨[], (s.storePayload u (input.take (input.length - holdBack))).lose⟩ := by
  rw [interpret]
  split
  · simp_all
  · simp_all
  · simp_all
  · rename_i u' hu'
    rw [h] at hu'
    cases hu'
    split
    · rfl
    · simp_all

/-! ## Steps of the reading -/

theorem interpret_sendChunk {s : Session γ ω} {entry : Guard} {file : Sending}
    (h : s.phase = .sending entry file) (input : Bytes) :
    (s.sendChunk entry file).interpret input = s.interpret input := by
  rw [interpret_sending h]
  rcases sendChunk_eq s entry file with ⟨rest, hphase, hall⟩ | hall
  · rw [interpret_sending hphase, hall]
  · rw [hall]

theorem receiveAll_nil (s : Session γ ω) (u : Upload γ) : s.receiveAll u [] = s.endPayload u := by
  simp only [receiveAll, storePayload, Upload.store_nil, endPayload]
  rfl

variable [SteadyGateway γ]

def AgreeInterpretation (x y : Interpretation γ ω) : Prop :=
  x.lines = y.lines ∧ x.final.Agree y.final

theorem Agree.interpret {s s' : Session γ ω} (h : s.Agree s') (input : Bytes) :
    AgreeInterpretation (s.interpret input) (s'.interpret input) := by
  fun_induction Session.interpret s input generalizing s' with
  | case1 s input hp =>
    rw [interpret_closed (h.phase ▸ hp)]
    exact ⟨rfl, h⟩
  | case2 s input hp hcut =>
    rw [interpret_last_line (h.phase ▸ hp) hcut]
    exact ⟨rfl, h.close⟩
  | case3 s input hp line rest hcut ih =>
    rw [interpret_line (h.phase ▸ hp) hcut]
    obtain ⟨hlines, hfinal⟩ := ih (h.handleLine _)
    exact ⟨congrArg (line :: ·) hlines, hfinal⟩
  | case4 s input entry file hp ih =>
    rw [interpret_sending (s := s') (h.phase ▸ hp)]
    apply ih
    exact ⟨h.gateway, congrArg (·.finish entry) h.registry,
      congrArg (fun w => (file.run w).2) h.output, h.cwd, rfl⟩
  | case5 s input u hp hcut =>
    rw [interpret_last_payload (h.phase ▸ hp) hcut]
    exact ⟨rfl, (h.storePayload u _).lose⟩
  | case6 s input u hp payload rest hcut ih =>
    rw [interpret_payload (h.phase ▸ hp) hcut]
    apply ih
    have hupload := (u.store_congr h.gateway payload).1
    unfold receiveAll
    rw [← hupload]
    exact (h.storePayload u payload).endPayload _

/-- Bytes in which no marker begins may be stored before the rest is looked at. -/
theorem interpret_storePayload {s : Session γ ω} {u : Upload γ} (h : s.phase = .receiving u)
    {b rest : Bytes} (hnone : ∀ i < b.length, ¬ endMarker <+: (b ++ rest).drop i)
    (hwindow : b = [] ∨ holdBack ≤ rest.length) :
    AgreeInterpretation ((s.storePayload u b).interpret rest) (s.interpret (b ++ rest)) := by
  have hphase : (s.storePayload u b).phase = .receiving (u.store s.gateway b).1 := rfl
  have hsplit := cutAtMarker?_append_of_none_begins hnone
  cases hcut : cutAtMarker? rest with
  | none =>
    rw [hcut] at hsplit
    rw [interpret_last_payload hphase hcut, interpret_last_payload h hsplit]
    have htake : (b ++ rest).take ((b ++ rest).length - holdBack) =
        b ++ rest.take (rest.length - holdBack) := by
      rcases hwindow with rfl | hlen
      · rfl
      · rw [List.length_append, Nat.add_sub_assoc hlen, List.take_length_add_append]
    rw [htake]
    exact ⟨rfl, (storePayload_append s u b _).symm.lose⟩
  | some parts =>
    obtain ⟨payload, after⟩ := parts
    rw [hcut] at hsplit
    rw [interpret_payload hphase hcut, interpret_payload h hsplit]
    have hupload := (u.store_append s.gateway b payload).1
    apply Agree.interpret
    unfold receiveAll
    rw [hupload]
    exact (storePayload_append s u b payload).symm.endPayload _

/-- What a session that waits comes to when its client is lost. -/
theorem lose_agree_interpret {s : Session γ ω} (h : s.advance? = none) :
    s.lose.Agree (s.bare.interpret s.inHand).final := by
  cases hp : s.phase with
  | closed =>
    have hs : ∀ u, s.phase ≠ .receiving u := by simp [hp]
    rw [bare_of_phase_ne hs, interpret_closed (s := s.withInput .empty) hp]
    simp only [lose, hp]
    exact Agree.withInput s .empty
  | command =>
    have hs : ∀ u, s.phase ≠ .receiving u := by simp [hp]
    have hcut : cutAtNewline? s.input.pending = none := by
      cases hcut : cutAtNewline? s.input.pending with
      | none => rfl
      | some parts => simp [advance?, hp, InputBuffer.nextLine, hcut] at h
    rw [bare_of_phase_ne hs, inHand_of_phase_ne hs,
      interpret_last_line (s := s.withInput .empty) hp hcut]
    simp only [lose, hp]
    exact (Agree.withInput s .empty).close
  | sending entry file => simp [advance?, hp] at h
  | receiving u =>
    have hpending : s.input.pending = [] := by
      by_cases hpending : s.input.pending = []
      · exact hpending
      · simp [advance?, hp, hpending] at h
    have hheld := u.reception.scanner.length_held_lt
    have hcut : cutAtMarker? u.reception.scanner.held = none :=
      cutAtMarker?_eq_none_iff.mpr (not_hasMarker_of_length_lt hheld)
    have hbare : s.bare = { s with input := .empty, phase := .receiving u.bare } := by
      simp only [bare, hp]
    have hhand : s.inHand = u.reception.scanner.held := by
      simp only [inHand, hp, hpending, List.append_nil]
    have hnothing : u.reception.scanner.held.length - holdBack = 0 := by
      rw [length_endMarker] at hheld
      rw [holdBack_eq]
      omega
    rw [hbare, hhand, interpret_last_payload rfl hcut, hnothing, List.take_zero]
    simp only [storePayload, Upload.store_nil, lose, hp]
    exact ⟨same_refl _, rfl, rfl, rfl, rfl⟩

/-- On a steady gateway a reading comes to what the interpreter computes. -/
theorem Reads.agree_interpret {s t : Session γ ω} {input : Bytes} (hr : Reads s input t)
    (ht : t.advance? = none)
    (hlines : ∀ line ∈ (s.interpret input).lines, line.length < maxLineBytes) :
    t.lose.Agree (s.interpret input).final := by
  induction hr with
  | waits s _ => exact lose_agree_interpret ht
  | closed s h input =>
    have hs : ∀ u, s.phase ≠ .receiving u := by simp [h]
    rw [bare_of_phase_ne hs, interpret_closed (s := s.withInput .empty) h]
    simp only [lose, h]
    exact Agree.withInput s .empty
  | @line s t line rest h hline next ih =>
    have hcut := cutAtNewline?_line hline rest
    rw [interpret_line h hcut] at hlines ⊢
    exact ih ht fun l hl => hlines l (List.mem_cons_of_mem line hl)
  | @overlong s t start rest h hstart hlen next ih =>
    have hclosed : s.close.interpret (start ++ rest) = ⟨[], s.close⟩ := interpret_closed rfl _
    rw [hclosed] at ih
    cases hcut : cutAtNewline? (start ++ rest) with
    | none =>
      rw [interpret_last_line h hcut]
      exact ih ht (by simp)
    | some parts =>
      -- the first line begins with all of `start`, so it is over the limit
      obtain ⟨line, after⟩ := parts
      rw [interpret_line h hcut] at hlines
      have hlt := hlines line List.mem_cons_self
      have hle := length_le_of_cutAtNewline? hstart hcut
      omega
  | @chunk s t entry file input h next ih =>
    rw [← interpret_sendChunk h] at hlines ⊢
    exact ih ht hlines
  | @payload s t u b rest h hnone hwindow next ih =>
    obtain ⟨hsame, hfinal⟩ := interpret_storePayload h hnone hwindow
    rw [← hsame] at hlines
    exact (ih ht hlines).trans hfinal
  | @marker s t u rest h next ih =>
    have hcut : cutAtMarker? (endMarker ++ rest) = some ([], rest) :=
      cutAtMarker?_payload not_hasMarker_nil rest
    rw [interpret_payload h hcut, receiveAll_nil] at hlines ⊢
    exact ih ht hlines

/-- However its input is delivered and however the delivery ends, a waiting session comes to what the
interpreter makes of all it was given. -/
theorem run_agree_interpret {s : Session γ ω} (h : s.advance? = none) (src : Source)
    (hlines : ∀ line ∈ (s.bare.interpret (s.inHand ++ src.content)).lines, line.length < maxLineBytes) :
    (s.run src).Agree (s.bare.interpret (s.inHand ++ src.content)).final := by
  obtain ⟨t, ht, hr, hrun⟩ := exists_reads_run h src
  rw [hrun]
  exact hr.agree_interpret ht hlines

omit [SteadyGateway γ] in
theorem advance?_start (g : γ) (registry : Registry) (output : ω) :
    (start g registry output).advance? = none := advance?_of_nothing rfl rfl

omit [SteadyGateway γ] in
theorem phase_final_interpret (s : Session γ ω) (input : Bytes) :
    (s.interpret input).final.phase = .closed := by
  fun_induction Session.interpret s input with
  | case1 s input hp => exact hp
  | case2 s input hp hcut => rfl
  | case3 s input hp line rest hcut ih => exact ih
  | case4 s input entry file hp ih => exact ih
  | case5 s input u hp hcut => exact phase_lose _
  | case6 s input u hp payload rest hcut ih => exact ih

omit [SteadyGateway γ] in
/-- No line is longer than the input that holds it. -/
theorem length_line_lt (s : Session γ ω) (input : Bytes) :
    ∀ line ∈ (s.interpret input).lines, line.length < input.length := by
  fun_induction Session.interpret s input with
  | case1 s input hp => simp
  | case2 s input hp hcut => simp
  | case3 s input hp line rest hcut ih =>
    obtain ⟨_, rfl⟩ := cutAtNewline?_eq_some_iff.mp hcut
    intro l hl
    simp only [List.length_append, List.length_cons]
    rcases List.mem_cons.mp hl with rfl | hl
    · omega
    · have := ih l hl
      omega
  | case4 s input entry file hp ih => exact ih
  | case5 s input u hp hcut => simp
  | case6 s input u hp payload rest hcut ih =>
    intro l hl
    have := ih l hl
    have := length_of_cutAtMarker? hcut
    omega

/-! ## An upload and a command behind it -/

/-- The served tree with nothing in it. -/
def bareStore : Recorded (Archive LocalFiles) := ⟨⟨⟨.empty, ⟨[Path.slash]⟩, []⟩, []⟩, []⟩

/-- The served tree with the file `a` in it, after these calls. -/
def storeOfA (content : Bytes) (calls : List GatewayCall) : Recorded (Archive LocalFiles) :=
  ⟨⟨⟨⟨#[.directory [([97], 1)], .file content]⟩, ⟨[Path.slash]⟩, [⟨1, content.length⟩]⟩,
    [(⟨[Path.slash, 97]⟩, content)]⟩, calls⟩

section

variable {s : Session (Recorded (Archive LocalFiles)) ω} {content : Bytes} {calls : List GatewayCall}

theorem handleLine_putA (hcwd : s.cwd = ⟨[Path.slash]⟩) (hgateway : s.gateway = bareStore) :
    s.handleLine (text "put a") =
      s.acceptUpload ⟨[Path.slash, 97]⟩ ((0 : Nat), 0) (storeOfA [] [.create ⟨[Path.slash, 97]⟩]) := by
  have htree : FileTree.empty.create ⟨[Path.slash, 97]⟩ = .ok (FileTree.empty.add FileTree.root [97] (.file [])) :=
    FileTree.create_of_vacant isName_a rfl rfl
  have hcreate : Gateway.create bareStore ⟨[Path.slash, 97]⟩ =
      (.ok ((0 : Nat), 0), storeOfA [] [.create ⟨[Path.slash, 97]⟩]) := by
    simp only [Gateway.create, Archive.create, LocalFiles.create, bareStore, htree]
    rfl
  have hpath : s.resolve (.ofText (text "a")) = ⟨[Path.slash, 97]⟩ := by
    rw [resolve, hcwd]
    decide
  rw [← hgateway, ← hpath] at hcreate
  have hput := handleLine_put (by decide) (by decide) hcreate
  rwa [hpath] at hput

theorem receiveAll_A {u : Upload (Recorded (Archive LocalFiles))} (hhandle : u.handle = ((0 : Nat), 0))
    (hfailure : u.reception.failure = none) (hgateway : s.gateway = storeOfA [] calls) :
    s.receiveAll u (Utf8.encode (text "pwd\n")) =
      sendResponse { s with
        gateway := storeOfA (Utf8.encode (text "pwd\n")) calls
        registry := s.registry.finish u.entry
        phase := .command } (.framed .success (text "File transfer completed.")) := by
  have hwrite : Writer.writeAll (⟨storeOfA [] calls, ((0 : Nat), 0)⟩ : Sink (Recorded (Archive LocalFiles)))
      (Utf8.encode (text "pwd\n")) = (.ok (), ⟨storeOfA (Utf8.encode (text "pwd\n")) calls, ((0 : Nat), 0)⟩) := by
    rw [Writer.writeAll_of_ok (n := 3) (by decide) rfl]
    exact Writer.writeAll_nil _
  have hstore : u.store s.gateway (Utf8.encode (text "pwd\n")) =
      ({ u with reception := ⟨.empty, u.reception.received + 4, none⟩ },
        storeOfA (Utf8.encode (text "pwd\n")) calls) := by
    simp only [Upload.store, Reception.attempt, hfailure, hgateway, hhandle, hwrite]
    rfl
  rw [receiveAll, storePayload, hstore]
  rfl

theorem handleLine_lsA (hcwd : s.cwd = ⟨[Path.slash]⟩) (hgateway : s.gateway = storeOfA content calls) :
    s.handleLine (text "ls") =
      sendResponse { s with gateway := storeOfA content (calls ++ [.list ⟨[Path.slash]⟩]) } (.bare (text "a")) := by
  have hlist : Gateway.list (storeOfA content calls) ⟨[Path.slash]⟩ =
      (.ok [⟨text "a", false⟩], storeOfA content (calls ++ [.list ⟨[Path.slash]⟩])) := by
    have hname : Utf8.decodeLossy [97] = text "a" := Utf8.decodeLossy_encode (text "a")
    have htree := FileTree.list_of_file (t := (storeOfA content calls).inner.inner.tree) isName_a rfl rfl
    rw [hname] at htree
    exact Prod.ext htree rfl
  have hls : s.handleLine (text "ls") = s.listDirectory.2.answer s.listDirectory.1 := rfl
  rw [hls, listDirectory, hcwd, hgateway, hlist]
  rfl

end

/-- What the interpreter makes of an upload and a command behind it. -/
theorem interpret_upload {output : ScriptedWriter} (houtput : output.Holds []) :
    let i := (start bareStore .empty output).interpret
      (Utf8.encode (text "put a\r\npwd\nFILE_TRANSFER_END\nls\n"))
    i.final.gateway = storeOfA (Utf8.encode (text "pwd\n"))
        [.create ⟨[Path.slash, 97]⟩, .list ⟨[Path.slash]⟩] ∧
      i.final.output.Holds (Utf8.encode greeting ++
        Utf8.encode (text "SUCCESS: READY_TO_RECEIVE\nSUCCESS: File transfer completed.\na\n")) := by
  have hput : cutAtNewline? (Utf8.encode (text "put a\r\npwd\nFILE_TRANSFER_END\nls\n")) =
      some (Utf8.encode (text "put a\r"), Utf8.encode (text "pwd\nFILE_TRANSFER_END\nls\n")) := by decide
  have hpayload : cutAtMarker? (Utf8.encode (text "pwd\nFILE_TRANSFER_END\nls\n")) =
      some (Utf8.encode (text "pwd\n"), Utf8.encode (text "ls\n")) := by decide
  have hls : cutAtNewline? (Utf8.encode (text "ls\n")) = some (Utf8.encode (text "ls"), []) := by decide
  have hputLine : dropCarriageReturn (Utf8.encode (text "put a\r")) = Utf8.encode (text "put a") := by decide
  have hlsLine : dropCarriageReturn (Utf8.encode (text "ls")) = Utf8.encode (text "ls") := by decide
  intro i
  have hi : i = _ := interpret_line rfl hput
  rw [hputLine, Utf8.decodeLossy_encode, handleLine_putA rfl rfl, interpret_payload rfl hpayload,
    receiveAll_A rfl rfl rfl, interpret_line rfl hls, hlsLine, Utf8.decodeLossy_encode, handleLine_lsA rfl rfl,
    interpret_last_line rfl rfl] at hi
  have hready := ScriptedWriter.accepts_holds.holds_send
    (ScriptedWriter.accepts_holds.holds_send houtput (Utf8.encode greeting))
    (Utf8.encode (Response.framed .success readyToReceive).toLine)
  have hdone := ScriptedWriter.accepts_holds.holds_send hready
    (Utf8.encode (Response.framed .success (text "File transfer completed.")).toLine)
  have hlisted := ScriptedWriter.accepts_holds.holds_send hdone (Utf8.encode (Response.bare (text "a")).toLine)
  simp only [List.nil_append, List.append_assoc, ← Utf8.encode_append] at hlisted
  rw [hi]
  refine ⟨rfl, ?_⟩
  rw [← Utf8.encode_append]
  exact hlisted

/-! ## The session against the interpreter -/

/-- The whole of a session against the interpreter: the calls on the gateway, the bytes of every file
created, all that was done to the output, the registry and the working directory. The output
is any writer, the gateway any steady one. -/
theorem run_start_eq_interpret (g : Recorded (Archive γ)) (registry : Registry) (output : ω) (src : Source)
    (hlines : ∀ line ∈ ((start g registry output).interpret src.content).lines,
      line.length < maxLineBytes) :
    let reached := (start g registry output).run src
    let reference := ((start g registry output).interpret src.content).final
    reached.gateway.calls = reference.gateway.calls ∧
      reached.gateway.inner.files = reference.gateway.inner.files ∧
      Same reached.gateway.inner.inner reference.gateway.inner.inner ∧
      reached.output = reference.output ∧
      reached.registry = reference.registry ∧
      reached.cwd = reference.cwd ∧
      reached.phase = .closed ∧ reference.phase = .closed := by
  intro reached reference
  have hagree : reached.Agree reference := run_agree_interpret (advance?_start g registry output) src hlines
  obtain ⟨⟨⟨hinner, hfiles⟩, hcalls⟩, hregistry, houtput, hcwd, hphase⟩ := hagree
  have hclosed : reference.phase = .closed := phase_final_interpret _ _
  exact ⟨hcalls, hfiles, hinner, houtput, hregistry, hcwd, hphase.trans hclosed, hclosed⟩

/-- An upload to the served tree and a command behind it, cut in the marker. -/
theorem run_start_eq_interpret_upload :
    let src : Source :=
      [.bytes (Utf8.encode (text "put a\r\npwd\nFILE_TRANS")), .failure (.plain .interrupted),
        .bytes (Utf8.encode (text "FER_END\nls\n"))]
    let s := start bareStore .empty ScriptedWriter.accepting
    (∀ line ∈ (s.interpret src.content).lines, line.length < maxLineBytes) ∧
      (s.run src).gateway.calls = [.create ⟨[Path.slash, 97]⟩, .list ⟨[Path.slash]⟩] ∧
      (s.run src).gateway.inner.files = [(⟨[Path.slash, 97]⟩, Utf8.encode (text "pwd\n"))] ∧
      (s.run src).output.contents = Utf8.encode greeting ++
        Utf8.encode (text "SUCCESS: READY_TO_RECEIVE\nSUCCESS: File transfer completed.\na\n") ∧
      (s.run src).gateway.calls = (s.interpret src.content).final.gateway.calls ∧
      (s.run src).gateway.inner.files = (s.interpret src.content).final.gateway.inner.files ∧
      (s.run src).output = (s.interpret src.content).final.output := by
  intro src s
  have hlines : ∀ line ∈ (s.interpret src.content).lines, line.length < maxLineBytes := by
    intro line hline
    have hlt := length_line_lt s src.content line hline
    have hsrc : src.content.length < maxLineBytes := by decide
    omega
  obtain ⟨hcalls, hfiles, _, houtput, _⟩ :=
    run_start_eq_interpret bareStore .empty ScriptedWriter.accepting src hlines
  have hcontent : src.content = Utf8.encode (text "put a\r\npwd\nFILE_TRANSFER_END\nls\n") := by decide
  have hnothing : ScriptedWriter.accepting.Holds [] := ⟨rfl, rfl, rfl, rfl, rfl⟩
  obtain ⟨hgateway, hsaid⟩ := interpret_upload hnothing
  rw [← hcontent] at hgateway hsaid
  refine ⟨hlines, hcalls.trans ?_, hfiles.trans ?_, ?_, hcalls, hfiles, houtput⟩
  · rw [hgateway]
    rfl
  · rw [hgateway]
    rfl
  · rw [houtput]
    exact hsaid.contents

end Session

end FileFerry
