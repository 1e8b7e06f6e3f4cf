import FileFerry.Proofs.Gateway.Store
import FileFerry.Proofs.Session.Reading

/-!
# What is put is what is got

A payload between its `put` and its marker may hold newlines, commands and beginnings of the
marker. A session that stores it sends the same bytes back, for any delivery of the input, any cut
of the writes and reads of the file, and any writer that takes what it is given.
-/

set_option autoImplicit false

namespace FileFerry

variable {γ ω : Type} [Gateway γ]

namespace Upload

theorem store_accepts {opened : Sink γ → Bytes → Prop} (h : Writer.Accepts opened) {u : Upload γ} {g : γ}
    {b : Bytes} (hfailure : u.reception.failure = none) (hb : opened ⟨g, u.handle⟩ b) (c : Bytes) :
    (u.store g c).1.reception.failure = none ∧
      opened ⟨(u.store g c).2, (u.store g c).1.handle⟩ (b ++ c) := by
  obtain ⟨sink, hwrite, hheld⟩ := h.writeAll hb c
  have hhandle : sink.handle = u.handle := by
    have := Sink.handle_writeAll ⟨g, u.handle⟩ c
    rwa [hwrite] at this
  have hstored : u.store g c = ({ u with
      reception := ⟨.empty, u.reception.received + c.length, none⟩ }, sink.gateway) := by
    simp only [store, Reception.attempt, hfailure, hwrite]
  rw [hstored]
  refine ⟨rfl, ?_⟩
  rwa [← hhandle]

theorem flush_accepts {opened : Sink γ → Bytes → Prop} (h : Writer.Accepts opened) {u : Upload γ} {g : γ}
    {b : Bytes} (hfailure : u.reception.failure = none) (hb : opened ⟨g, u.handle⟩ b) :
    ∃ g', u.flush g = (none, g') ∧ opened ⟨g', u.handle⟩ b := by
  obtain ⟨sink, hflush, hheld⟩ := h.flush hb
  have hhandle : sink.handle = u.handle := by
    have : (Writer.flush (⟨g, u.handle⟩ : Sink γ)).2.handle = u.handle := rfl
    rwa [hflush] at this
  refine ⟨sink.gateway, ?_, ?_⟩
  · simp only [flush, Reception.attempt, hfailure, hflush]
  · rwa [← hhandle]

end Upload

namespace Session

variable [Writer ω]

/-- The session after an upload that went well. -/
def uploaded (s : Session γ ω) (u : Upload γ) (g : γ) : Session γ ω :=
  sendResponse { s with gateway := g, registry := s.registry.finish u.entry, phase := .command }
    (.framed .success (text "File transfer completed."))

namespace Reads

theorem after_line {s t : Session γ ω} {line rest : Bytes} (hr : Reads s (line ++ newline :: rest) t)
    (hp : s.phase = .command) (hline : newline ∉ line) (hlen : line.length < maxLineBytes) :
    Reads (s.handleLine (Utf8.decodeLossy (dropCarriageReturn line))) rest t := by
  have hcut := cutAtNewline?_line hline rest
  generalize hinput : line ++ newline :: rest = input at hr hcut
  cases hr with
  | waits t h =>
    have ht : t.phase = .command := phase_of_phase_bare hp (by simp)
    have hs : ∀ u, t.phase ≠ .receiving u := by simp [ht]
    rw [inHand_of_phase_ne hs] at hcut
    simp [advance?, ht, InputBuffer.nextLine, hcut] at h
  | closed t h => simp [phase_of_phase_bare hp (by simp)] at h
  | line h hline' next =>
    rw [cutAtNewline?_line hline'] at hcut
    cases hcut
    exact next
  | overlong h hstart hlong next =>
    have := length_le_of_cutAtNewline? hstart hcut
    omega
  | chunk h => simp [hp] at h
  | payload h => simp [hp] at h
  | marker h => simp [hp] at h

theorem after_file {s t : Session γ ω} {input : Bytes} (hr : Reads s input t) {entry : Guard}
    {file : Sending} (hp : s.phase = .sending entry file) : Reads (s.sendAll entry file) input t := by
  induction hr generalizing file with
  | waits t h =>
    have ht : t.phase = .sending entry file := phase_of_phase_bare hp (by simp)
    simp [advance?, ht] at h
  | closed t h => simp [phase_of_phase_bare hp (by simp)] at h
  | @chunk s t entry' file' input h next ih =>
    rw [hp] at h
    obtain ⟨rfl, rfl⟩ := Phase.sending.inj h
    rcases sendChunk_eq s entry file with ⟨rest, hphase, hall⟩ | hall
    · rw [← hall]
      exact ih hphase
    · rwa [← hall]
  | line h => simp [hp] at h
  | overlong h => simp [hp] at h
  | payload h => simp [hp] at h
  | marker h => simp [hp] at h

/-- A payload goes to the file, and what follows its marker is read on. -/
theorem after_payload {p : Path} {opened : Sink γ → Bytes → Prop} {kept : γ → Bytes → Prop}
    (hstore : StoresAt p opened kept) {s t : Session γ ω} {input : Bytes} (hr : Reads s input t)
    {payload rest : Bytes} (hcut : cutAtMarker? input = some (payload, rest)) {u : Upload γ}
    (hp : s.phase = .receiving u) (hfailure : u.reception.failure = none) {b : Bytes}
    (hb : opened ⟨s.gateway, u.handle⟩ b) :
    ∃ g, kept g (b ++ payload) ∧ Reads (s.uploaded u g) rest t := by
  induction hr generalizing payload u b with
  | waits t h =>
    cases htp : t.phase with
    | receiving v =>
      have hpending : t.input.pending = [] := by
        by_cases hpending : t.input.pending = []
        · exact hpending
        · simp [advance?, htp, hpending] at h
      have hheld := v.reception.scanner.length_held_lt
      have hnone : cutAtMarker? t.inHand = none := by
        rw [inHand, htp, hpending]
        simpa using cutAtMarker?_eq_none_iff.mpr (not_hasMarker_of_length_lt hheld)
      rw [hnone] at hcut
      cases hcut
    | _ => simp [bare, withInput, htp] at hp
  | closed t h =>
    simp [bare, withInput, h] at hp
  | @payload s t v c rest' h hnone hwindow next ih =>
    rw [hp] at h
    obtain rfl := Phase.receiving.inj h
    rw [cutAtMarker?_append_of_none_begins hnone] at hcut
    obtain ⟨⟨payload', after⟩, hcut', heq⟩ := Option.map_eq_some_iff.mp hcut
    obtain ⟨rfl, rfl⟩ := Prod.mk.inj heq
    obtain ⟨hfailure', hb'⟩ := Upload.store_accepts hstore.accepts hfailure hb c
    obtain ⟨g, hkept, hnext⟩ := ih hcut' rfl hfailure' hb'
    refine ⟨g, ?_, hnext⟩
    simpa using hkept
  | @marker s t v rest' h next ih =>
    rw [hp] at h
    obtain rfl := Phase.receiving.inj h
    have hnil : cutAtMarker? (endMarker ++ rest') = some ([], rest') :=
      cutAtMarker?_payload not_hasMarker_nil rest'
    rw [hnil] at hcut
    cases hcut
    obtain ⟨g, hflush, hb'⟩ := Upload.flush_accepts hstore.accepts hfailure hb
    refine ⟨Gateway.close g u.handle, ?_, ?_⟩
    · simpa using hstore.close hb'
    · have hend : s.endPayload u = s.uploaded u (Gateway.close g u.handle) := by
        simp only [endPayload, hflush]
        rfl
      rwa [← hend]
  | line h => simp [hp] at h
  | overlong h => simp [hp] at h
  | chunk h => simp [hp] at h

theorem at_end {s t : Session γ ω} (hr : Reads s [] t) (hp : s.phase = .command) :
    t.input.pending = [] ∧ t.withInput .empty = s := by
  obtain ⟨input, hinput⟩ : ∃ input : Bytes, input = [] := ⟨[], rfl⟩
  rw [← hinput] at hr
  cases hr with
  | waits t h =>
    have ht : t.phase = .command := phase_of_phase_bare hp (by simp)
    have hs : ∀ u, t.phase ≠ .receiving u := by simp [ht]
    rw [inHand_of_phase_ne hs] at hinput
    exact ⟨hinput, (bare_of_phase_ne hs).symm⟩
  | closed t h => simp [phase_of_phase_bare hp (by simp)] at h
  | line h hline => simp at hinput
  | overlong h hstart hlong =>
    obtain ⟨rfl, _⟩ := List.append_eq_nil_iff.mp hinput
    simp [maxLineBytes] at hlong
  | chunk h => simp [hp] at h
  | payload h => simp [hp] at h
  | marker h => simp [hp] at h

end Reads

/-- What a session says to an upload and the download of the same file. -/
def roundTripOutput (payload : Bytes) : Bytes :=
  Utf8.encode (text "SUCCESS: READY_TO_RECEIVE\n") ++
    Utf8.encode (text "SUCCESS: File transfer completed.\n") ++
    Utf8.encode (text "SUCCESS: FILE_TRANSFER_START\n") ++ (payload ++ endMarker)

section Requests

variable {name : Text} (hne : name ≠ []) (htrim : Text.trim name = name)

include hne htrim

theorem Reads.after_put {s t : Session γ ω} {payload rest : Bytes}
    (hr : Reads s (Utf8.encode (text "put " ++ name) ++ newline :: (payload ++ endMarker ++ rest)) t)
    (hphase : s.phase = .command) (hnewline : '\n' ∉ name)
    (hlen : (Utf8.encode (text "put " ++ name)).length < maxLineBytes) (hpayload : ¬ HasMarker payload)
    {opened : Sink γ → Bytes → Prop} {kept : γ → Bytes → Prop}
    (hstore : StoresAt (s.resolve (.ofText name)) opened kept) {handle : Gateway.Handle γ} {g : γ}
    (hcreate : Gateway.create s.gateway (s.resolve (.ofText name)) = (.ok handle, g))
    (hopened : opened ⟨g, handle⟩ []) :
    ∃ u g', kept g' payload ∧
      Reads ((s.acceptUpload (s.resolve (.ofText name)) handle g).uploaded u g') rest t := by
  have hrequest := isRequest_named (text "put ") (by decide) hne htrim hnewline
  have hput := hr.after_line hphase hrequest.newline_not_mem hlen
  rw [hrequest.decodeLossy, handleLine_put hne htrim hcreate] at hput
  obtain ⟨g', hkept, hstored⟩ := hput.after_payload hstore (cutAtMarker?_payload hpayload _) rfl rfl hopened
  rw [List.nil_append] at hkept
  exact ⟨_, g', hkept, hstored⟩

theorem Reads.after_get {s t : Session γ ω} {payload rest : Bytes}
    (hr : Reads s (Utf8.encode (text "get " ++ name) ++ newline :: rest) t)
    (hphase : s.phase = .command) (hnewline : '\n' ∉ name)
    (hlen : (Utf8.encode (text "get " ++ name)).length < maxLineBytes)
    {opened : Sink γ → Bytes → Prop} {kept : γ → Bytes → Prop}
    (hstore : StoresAt (s.resolve (.ofText name)) opened kept) (hkept : kept s.gateway payload) :
    ∃ src g entry, src.content = payload ∧ kept g payload ∧
      Reads ((s.acceptDownload src g).sendAll entry (.ofSource src)) rest t := by
  have hrequest := isRequest_named (text "get ") (by decide) hne htrim hnewline
  have hget := hr.after_line hphase hrequest.newline_not_mem hlen
  obtain ⟨g₁, hfound, hkept₁⟩ := hstore.found hkept
  obtain ⟨src, g, hopen, hcontent, hkept₂⟩ := hstore.openFile hkept₁
  rw [hrequest.decodeLossy, handleLine_get hne htrim hfound hopen] at hget
  exact ⟨src, g, _, hcontent, hkept₂, hget.after_file rfl⟩

omit hne htrim in
theorem holds_roundTripOutput {holds : ω → Bytes → Prop} (hwriter : Writer.Accepts holds)
    {s : Session γ ω} {said : Bytes} (hsaid : holds s.output said) (p : Path) (handle : Gateway.Handle γ)
    (u : Upload γ) (entry : Guard) (src : Source) (g₁ g₂ g₃ : γ) :
    holds ((((s.acceptUpload p handle g₁).uploaded u g₂).acceptDownload src g₃).sendAll entry
      (.ofSource src)).output (said ++ roundTripOutput src.content) := by
  have hready := hwriter.holds_send hsaid (Utf8.encode (Response.framed .success readyToReceive).toLine)
  have hdone := hwriter.holds_send hready
    (Utf8.encode (Response.framed .success (text "File transfer completed.")).toLine)
  have hstart := hwriter.holds_send hdone (Utf8.encode (Response.framed .success transferStart).toLine)
  have hsent := Sending.run_accepts hwriter (.ofSource src) hstart
  have hall : said ++ roundTripOutput src.content =
      said ++ Utf8.encode (Response.framed .success readyToReceive).toLine ++
        Utf8.encode (Response.framed .success (text "File transfer completed.")).toLine ++
        Utf8.encode (Response.framed .success transferStart).toLine ++
        (src.content ++ endMarker) := by
    simp only [roundTripOutput, List.append_assoc]
    rfl
  rw [hall]
  exact hsent

/-- A payload is put and got again, byte for byte, with nothing else said, and the session waits for
the next command. -/
theorem put_then_get {s : Session γ ω} (hphase : s.phase = .command) (hinput : s.input.pending = [])
    (hnewline : '\n' ∉ name) (hlen : (Utf8.encode (text "put " ++ name)).length < maxLineBytes)
    {payload : Bytes} (hpayload : ¬ HasMarker payload)
    {opened : Sink γ → Bytes → Prop} {kept : γ → Bytes → Prop}
    (hstore : StoresAt (s.resolve (.ofText name)) opened kept)
    (hcreate : ∃ handle g, Gateway.create s.gateway (s.resolve (.ofText name)) = (.ok handle, g) ∧
      opened ⟨g, handle⟩ [])
    {holds : ω → Bytes → Prop} (hwriter : Writer.Accepts holds) {said : Bytes}
    (hsaid : holds s.output said) {src : Source} (hsrc : ∀ a ∈ src, a.isHard = false)
    (hcontent : src.content = Utf8.encode (text "put " ++ name ++ text "\n") ++ payload ++ endMarker ++
      Utf8.encode (text "get " ++ name ++ text "\n")) :
    holds (src.foldl take s).output (said ++ roundTripOutput payload) ∧
      kept (src.foldl take s).gateway payload ∧
      (src.foldl take s).phase = .command ∧ (src.foldl take s).input.pending = [] := by
  have hs : ∀ u, s.phase ≠ .receiving u := by simp [hphase]
  have hwaits : s.advance? = none := advance?_of_nothing hphase hinput
  have hbare : s.bare = s := by
    rw [bare_of_phase_ne hs, withInput, InputBuffer.empty, ← hinput]
  have hinputs : s.inHand ++ src.content =
      Utf8.encode (text "put " ++ name) ++ newline :: (payload ++ endMarker ++
        (Utf8.encode (text "get " ++ name) ++ newline :: [])) := by
    rw [inHand_of_phase_ne hs, hinput, hcontent]
    simp only [Utf8.encode_append, List.nil_append, List.append_assoc]
    rfl
  have hr := reads_foldl_take hwaits hsrc
  rw [hbare, hinputs] at hr
  obtain ⟨handle, g, hg, hopened⟩ := hcreate
  obtain ⟨u, g', hkept, hput⟩ := hr.after_put hne htrim hphase hnewline hlen hpayload hstore hg hopened
  -- `get` is as long as `put`
  have hlen' : (Utf8.encode (text "get " ++ name)).length < maxLineBytes := by
    rw [Utf8.encode_append, List.length_append] at hlen ⊢
    exact hlen
  obtain ⟨file, g₂, entry, hfile, hkept₂, hget⟩ := hput.after_get hne htrim rfl hnewline hlen' hstore hkept
  obtain ⟨hpending, hend⟩ := hget.at_end rfl
  have hsaidAll := holds_roundTripOutput hwriter hsaid (s.resolve (.ofText name)) handle u entry file g g' g₂
  rw [hfile] at hsaidAll
  generalize src.foldl take s = t at *
  refine ⟨?_, ?_, ?_, hpending⟩
  · change holds (t.withInput .empty).output _
    rw [hend]
    exact hsaidAll
  · change kept (t.withInput .empty).gateway _
    rw [hend]
    exact hkept₂
  · change (t.withInput .empty).phase = _
    rw [hend]
    rfl

end Requests

/-- A payload that ends in the beginning of a marker, cut in the marker itself. -/
theorem put_then_get_served :
    let s : Session LocalFiles ScriptedWriter :=
      ⟨⟨.empty, ⟨[Path.slash]⟩, []⟩, .empty, .accepting, ⟨[Path.slash]⟩, .empty, .command⟩
    let payload := Utf8.encode (text "get a\nFILE_TRANSFER_")
    let src : Source :=
      [.bytes (Utf8.encode (text "put a\nget a\nFILE_TRANSFER_FILE")), .failure (.plain .interrupted),
        .bytes (Utf8.encode (text "_TRANSFER_END\nget a\n"))]
    ¬ HasMarker payload ∧ ScriptedWriter.Holds (src.foldl take s).output (roundTripOutput payload) ∧
      (src.foldl take s).phase = .command := by
  intro s payload src
  have hpayload : ¬ HasMarker payload := by decide
  obtain ⟨f, hcreate, hopened⟩ := LocalFiles.create_empty
  have hname : text "a" ≠ [] := by decide
  have hsaid : s.output.Holds [] := ⟨rfl, rfl, rfl, rfl, rfl⟩
  have hsrc : ∀ a ∈ src, a.isHard = false := by decide
  have hcommand : s.phase = .command := rfl
  obtain ⟨hall, _, hphase, _⟩ :=
    put_then_get hname (by decide) hcommand rfl (by decide) (by decide) hpayload
      (LocalFiles.storesAt ⟨[Path.slash, 97]⟩) ⟨(0 : Nat), f, hcreate, hopened⟩
      ScriptedWriter.accepts_holds hsaid hsrc (by decide)
  exact ⟨hpayload, hall, hphase⟩

end Session

end FileFerry
