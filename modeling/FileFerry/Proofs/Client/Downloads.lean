import FileFerry.Proofs.Client.Dialogue
import FileFerry.Proofs.Client.TypedLines
import FileFerry.Proofs.Gateway.Removal
import FileFerry.Proofs.Lockstep.System
import FileFerry.Proofs.Reception

/-!
# A download from its first byte to its file

While a payload is received nothing changes but the local file, what the scanner holds and what is still to
be read (`Downloading`). So a download comes to its marker, with the payload before it in the file or the
file removed, or to the loss of its server. In that last case nobody takes the file away again
(`lost_download_leaves_its_file`).
-/

set_option autoImplicit false

namespace FileFerry

variable {φ τ κ δ : Type} [Gateway φ]

/-! ## The local file -/

namespace LocalSink

theorem handle_write (s : LocalSink φ) (b : Bytes) : (Writer.write s b).2.handle = s.handle := by
  obtain ⟨g, _ | h⟩ := s <;> rfl

theorem handle_pours {x y : Option IoError × LocalSink φ} {b : Bytes} (h : Pours x b y) :
    y.2.handle = x.2.handle :=
  h.keeps (P := fun s => s.handle = x.2.handle) (fun s b hs => (handle_write s b).trans hs) rfl

theorem write_some {g : φ} {h : Gateway.Handle φ} {b : Bytes} {result : Except IoError Nat} {s : LocalSink φ}
    (hwrite : Writer.write (⟨g, some h⟩ : LocalSink φ) b = (result, s)) :
    ∃ g', s = ⟨g', some h⟩ ∧ Writer.write (⟨g, h⟩ : Sink φ) b = (result, ⟨g', h⟩) := by
  cases hwrite
  exact ⟨_, rfl, rfl⟩

theorem pours_some {g : φ} {h : Gateway.Handle φ} {failure : Option IoError} {b : Bytes}
    {y : Option IoError × LocalSink φ} (hpours : Pours (failure, (⟨g, some h⟩ : LocalSink φ)) b y) :
    Pours (failure, (⟨g, h⟩ : Sink φ)) b (y.1, ⟨y.2.files, h⟩) := by
  generalize hx : ((failure, ⟨g, some h⟩) : Option IoError × LocalSink φ) = x at hpours
  induction hpours generalizing failure g with
  | done x =>
    cases hx
    exact .done _
  | failed e sink b =>
    cases hx
    exact .failed e _ b
  | takes hne hwrite _ ih =>
    cases hx
    obtain ⟨g', rfl, hinner⟩ := write_some hwrite
    exact .takes hne hinner (ih rfl)
  | again hne hwrite he _ ih =>
    cases hx
    obtain ⟨g', rfl, hinner⟩ := write_some hwrite
    exact .again hne hinner he (ih rfl)
  | refuses hne hwrite rest =>
    cases hx
    obtain ⟨g', rfl, hinner⟩ := write_some hwrite
    exact .refuses hne hinner rest
  | fails hne hwrite he rest =>
    cases hx
    obtain ⟨g', rfl, hinner⟩ := write_some hwrite
    exact .fails hne hinner he rest

theorem flushed_some {failure : Option IoError} (g : φ) (h : Gateway.Handle φ) :
    Reception.flushed (failure, (⟨g, some h⟩ : LocalSink φ)) =
      ((Reception.flushed (failure, (⟨g, h⟩ : Sink φ))).1,
        ⟨(Reception.flushed (failure, (⟨g, h⟩ : Sink φ))).2.gateway, some h⟩) := by
  cases failure with
  | some e => rfl
  | none =>
    rw [Reception.flushed, Reception.flushed, attempt_none, attempt_none]
    rfl

end LocalSink

theorem KeepsWrites.pours {opened : Sink φ → Bytes → Prop} {kept : φ → Bytes → Prop}
    (h : KeepsWrites opened kept) {s s' : Sink φ} {b c : Bytes} (hpours : Pours (none, s) c (none, s'))
    (hopened : opened s b) : opened s' (b ++ c) := by
  generalize hx : ((none, s) : Option IoError × Sink φ) = x at hpours
  generalize hy : ((none, s') : Option IoError × Sink φ) = y at hpours
  induction hpours generalizing s b with
  | done x =>
    cases hx
    cases hy
    rwa [List.append_nil]
  | failed => cases hx
  | takes hne hwrite _ ih =>
    cases hx
    have hall := ih (h.write hopened hwrite) rfl hy
    rwa [List.append_assoc, ← List.append_assoc (List.take _ _), List.take_append_drop] at hall
  | again hne hwrite he _ ih =>
    cases hx
    exact ih (h.again hopened hwrite he) rfl hy
  | refuses => cases hy
  | fails => cases hy

theorem KeepsWrites.flushed {opened : Sink φ → Bytes → Prop} {kept : φ → Bytes → Prop}
    (h : KeepsWrites opened kept) {x : Option IoError × Sink φ} {b : Bytes} (hopened : x.1 = none → opened x.2 b)
    (hflushed : (Reception.flushed x).1 = none) : opened (Reception.flushed x).2 b := by
  obtain ⟨_ | e, s⟩ := x
  · rw [Reception.flushed, attempt_none] at hflushed ⊢
    cases hflush : Writer.flush s with
    | mk result s' =>
      rw [hflush] at hflushed
      cases result with
      | ok => exact h.flush (hopened rfl) hflush
      | error e => cases hflushed
  · cases hflushed

theorem Discards.pours {p : Path} {made : Sink φ → Prop} {gone : φ → Prop} (h : Discards p made gone)
    {x y : Option IoError × Sink φ} {b : Bytes} (hpours : Pours x b y) (hmade : made x.2) : made y.2 :=
  hpours.keeps h.write hmade

theorem Discards.flushed {p : Path} {made : Sink φ → Prop} {gone : φ → Prop} (h : Discards p made gone)
    {x : Option IoError × Sink φ} (hmade : made x.2) : made (Reception.flushed x).2 := by
  obtain ⟨_ | e, s⟩ := x
  · rw [Reception.flushed, attempt_none]
    exact h.flush s hmade
  · exact hmade

theorem handle_flushed (x : Option IoError × Sink φ) : (Reception.flushed x).2.handle = x.2.handle := by
  obtain ⟨_ | e, s⟩ := x
  · rw [Reception.flushed, attempt_none]
    rfl
  · rfl

/-! ## While it is received -/

/-- The client `c` receives the download that `start` received as `d`, and has released `b` to its file since. -/
structure Downloading (start : Client φ τ κ δ) (d : Download φ) (b : Bytes) (c : Client φ τ κ δ) (e : Download φ) :
    Prop where
  client : c = { start with files := c.files, pending := c.pending, phase := .payload e }
  download : e = { d with reception := e.reception }
  received : e.reception.received = d.reception.received + b.length
  pours : Pours (d.reception.failure, (⟨start.files, d.handle⟩ : LocalSink φ)) b
    (e.reception.failure, ⟨c.files, d.handle⟩)

namespace Downloading

variable {start c : Client φ τ κ δ} {d e : Download φ} {b : Bytes}

theorem phase (h : Downloading start d b c e) : c.phase = .payload e :=
  (congrArg Client.phase h.client).trans rfl

theorem begins (hphase : start.phase = .payload d) : Downloading start d [] start d := by
  refine ⟨?_, rfl, rfl, .done _⟩
  rw [← hphase]

theorem supply (h : Downloading start d b c e) (pending : Bytes) :
    Downloading start d b { c with pending } e := by
  refine ⟨?_, h.download, h.received, h.pours⟩
  conv => lhs; rw [h.client]

end Downloading

variable [Writer τ]

namespace Client

/-- What comes next does not depend on what the client was about. -/
theorem tell_phase (c : Client φ τ κ δ) (phase : ClientPhase φ) (t : Text) :
    ({ c with phase } : Client φ τ κ δ).tell t = c.tell t := by
  unfold tell print
  cases hwritten : Writer.writeAll c.terminal (Utf8.encode t) with
  | mk result terminal =>
    cases result with
    | error e => rfl
    | ok =>
      cases hnewline : Writer.writeAll terminal [newline] with
      | mk result' terminal' =>
        dsimp only
        rw [hnewline]
        cases result' <;> rfl

/-- The line that a download that went well ends with. -/
def downloaded (name : Text) (n : Nat) : Text :=
  text "Downloaded " ++ name ++ text " (" ++ Decimal.ofNat n ++ text " bytes)."

theorem completeDownload_of_sound {c : Client φ τ κ δ} {d : Download φ} {r : Reception}
    {h : Gateway.Handle φ} (hhandle : d.handle = some h) (hr : r.failure = none) :
    c.completeDownload d r = { c with files := Gateway.close c.files h }.tell (downloaded d.name r.received) := by
  simp only [completeDownload, hhandle, hr]
  rfl

theorem completeDownload_of_failed {c : Client φ τ κ δ} {d : Download φ} {r : Reception}
    {h : Gateway.Handle φ} {e : IoError} (hhandle : d.handle = some h) (hr : r.failure = some e) :
    c.completeDownload d r = { c with files := (Gateway.remove (Gateway.close c.files h) d.path).2 }.tell
      (ClientError.localFile d.path e).message := by
  simp only [completeDownload, hhandle, hr]
  rfl

theorem completeDownload_of_no_file {c : Client φ τ κ δ} {d : Download φ} {r : Reception} {e : IoError}
    (hhandle : d.handle = none) (hr : r.failure = some e) :
    c.completeDownload d r = c.tell (ClientError.localFile d.path e).message := by
  simp only [completeDownload, hhandle, hr]
  rfl

theorem completeDownload_phase (c : Client φ τ κ δ) (phase : ClientPhase φ) (d : Download φ) (r : Reception) :
    ({ c with phase } : Client φ τ κ δ).completeDownload d r = c.completeDownload d r := by
  have htell (files : φ) (t : Text) :
      ({ c with files, phase } : Client φ τ κ δ).tell t = ({ c with files } : Client φ τ κ δ).tell t :=
    tell_phase { c with files } phase t
  cases hr : r.failure with
  | none => simp only [completeDownload, hr, htell]
  | some e => simp only [completeDownload, hr, report, ClientError.isFatal, Bool.false_eq_true, if_false, htell]

end Client

variable [Writer κ] [Canceller δ]

/-- With `all` before it, a download comes to its marker, or its server is lost. -/
def Dialogue.Finishes (start : Client φ τ κ δ) (d : Download φ) (b all : Bytes) (x : Dialogue φ τ κ δ) : Prop :=
  (∃ payload after y pending left, cutAtMarker? all = some (payload, after) ∧ pending ++ left.content = after ∧
      Pours (d.reception.failure, (⟨start.files, d.handle⟩ : LocalSink φ)) (b ++ payload) y ∧
      x.GoesTo ⟨({ start with files := (Reception.flushed y).2.files, pending } : Client φ τ κ δ).completeDownload d
        ⟨.empty, d.reception.received + (b ++ payload).length, (Reception.flushed y).1⟩, left⟩) ∨
    cutAtMarker? all = none ∧ ∃ more c e failure left, more <+: all ∧ Downloading start d (b ++ more) c e ∧
      failure.IsLoss ∧ x.GoesTo ⟨c.finish (.error failure), left⟩

namespace Dialogue.Finishes

variable {start c : Client φ τ κ δ} {d e : Download φ} {b all : Bytes} {x : Dialogue φ τ κ δ}

theorem head (h : Finishes start d b all x.go) : Finishes start d b all x := by
  obtain ⟨payload, after, y, pending, left, hcut, hleft, hpours, hgo⟩ |
    ⟨hcut, more, c, e, failure, left, hmore, hdownloading, hloss, hgo⟩ := h
  · exact .inl ⟨payload, after, y, pending, left, hcut, hleft, hpours, hgo.head⟩
  · exact .inr ⟨hcut, more, c, e, failure, left, hmore, hdownloading, hloss, hgo.head⟩

/-- What was released before the marker belongs to the payload. -/
theorem released {released : Bytes} (hnone : ∀ i < released.length, ¬ endMarker <+: (released ++ all).drop i)
    (h : Finishes start d (b ++ released) all x) : Finishes start d b (released ++ all) x := by
  have hcuts := cutAtMarker?_append_of_none_begins hnone
  obtain ⟨payload, after, y, pending, left, hcut, hleft, hpours, hgo⟩ |
    ⟨hcut, more, c, e, failure, left, hmore, hdownloading, hloss, hgo⟩ := h
  · rw [hcut] at hcuts
    rw [List.append_assoc] at hpours hgo
    exact .inl ⟨released ++ payload, after, y, pending, left, hcuts, hleft, hpours, hgo⟩
  · rw [hcut] at hcuts
    rw [List.append_assoc] at hdownloading
    exact .inr ⟨hcuts, released ++ more, c, e, failure, left, (List.prefix_append_right_inj _).mpr hmore,
      hdownloading, hloss, hgo⟩

/-- The bytes at hand have the marker. -/
theorem of_complete (h : Downloading start d b c e) (hne : c.pending ≠ []) {payload trailing : Bytes}
    (hcut : cutAtMarker? (e.reception.scanner.held ++ c.pending) = some (payload, trailing)) (src : Source) :
    Finishes start d b (e.reception.scanner.held ++ c.pending ++ src.content) ⟨c, src⟩ := by
  have hstep : c.advance? = some (c.takePayload e) := by simp [Client.advance?, h.phase, hne]
  have hhandle : e.handle = d.handle := by rw [h.download]
  obtain ⟨y, hpours, htake⟩ := Reception.take_of_cut hcut (⟨c.files, d.handle⟩ : LocalSink φ)
  refine .inl ⟨payload, trailing ++ src.content, y, trailing, src, cutAtMarker?_append_of_some hcut _, rfl,
    h.pours.trans hpours, ?_⟩
  have hended : c.takePayload e = ({ start with
      files := (Reception.flushed y).2.files, pending := trailing } : Client φ τ κ δ).completeDownload d
        ⟨.empty, d.reception.received + (b ++ payload).length, (Reception.flushed y).1⟩ := by
    rw [← Client.completeDownload_phase _ (.payload e), List.length_append, ← Nat.add_assoc, ← h.received]
    simp only [Client.takePayload, hhandle, htake]
    rw [h.client, h.download]
    rfl
  rw [← hended]
  exact .step hstep src

/-- The bytes at hand have no marker yet: what cannot begin one is released. -/
theorem of_pending (h : Downloading start d b c e) (hne : c.pending ≠ [])
    (hn : ¬ HasMarker (e.reception.scanner.held ++ c.pending)) {src : Source}
    (hnext : ∀ {c' : Client φ τ κ δ} {e' : Download φ} {more : Bytes},
      Downloading start d (b ++ more) c' e' → c'.pending = [] →
        Finishes start d (b ++ more) (e'.reception.scanner.held ++ c'.pending ++ src.content) ⟨c', src⟩) :
    Finishes start d b (e.reception.scanner.held ++ c.pending ++ src.content) ⟨c, src⟩ := by
  have hstep : c.advance? = some (c.takePayload e) := by simp [Client.advance?, h.phase, hne]
  have hhandle : e.handle = d.handle := by rw [h.download]
  obtain ⟨more, r, sink, htake, hsplit, hwindow, hreceived, hpours⟩ :=
    Reception.take_of_not_hasMarker hn (⟨c.files, d.handle⟩ : LocalSink φ)
  have hsink : sink = ⟨sink.files, d.handle⟩ := by
    have hkept := LocalSink.handle_pours hpours
    cases sink
    exact congrArg (LocalSink.mk _) hkept
  have htaken : c.takePayload e =
      { c with files := sink.files, pending := [], phase := .payload { e with reception := r } } := by
    simp only [Client.takePayload, hhandle, htake]
  have hdownloading : Downloading start d (b ++ more) (c.takePayload e) { e with reception := r } := by
    rw [htaken]
    refine ⟨?_, ?_, ?_, h.pours.trans (hsink ▸ hpours)⟩
    · rw [h.client]
    · rw [h.download]
    · rw [hreceived, h.received, List.length_append, Nat.add_assoc]
  have hnil : (c.takePayload e).pending = [] := by rw [htaken]
  have hrest := hnext hdownloading hnil
  rw [hnil, List.append_nil] at hrest
  apply head
  rw [go_of_advance? hstep, ← hsplit, List.append_assoc]
  apply released _ hrest
  rw [← hsplit] at hn
  exact none_begins_before_window hn hwindow _

end Dialogue.Finishes

/-- Every download comes to its marker, or its server is lost. -/
theorem Downloading.finishes {start c : Client φ τ κ δ} {d e : Download φ} {b : Bytes}
    (h : Downloading start d b c e) (src : Source) :
    Dialogue.Finishes start d b (e.reception.scanner.held ++ c.pending ++ src.content) ⟨c, src⟩ := by
  by_cases hnil : c.pending = []
  · have hwaits : c.advance? = none := by simp [Client.advance?, h.phase, hnil]
    have hopen : c.isFinished = false := by simp [Client.isFinished, h.phase]
    apply Dialogue.Finishes.head
    rcases Dialogue.go_of_read hwaits hopen src with
      ⟨x, xs, rest, hcontent, hsize, hgo⟩ | ⟨rest, hcontent, hsize, hgo⟩ | ⟨failure, rest, hcontent, hloss, hgo⟩
    · have hnext := (h.supply (c.pending ++ x :: xs)).finishes rest
      rw [hgo, hcontent, hnil, List.append_nil]
      rw [List.append_assoc] at hnext
      simpa only [hnil, List.nil_append] using hnext
    · rw [hgo, hcontent]
      exact h.finishes rest
    · -- what is held back begins no marker
      have hnone : cutAtMarker? e.reception.scanner.held = none :=
        cutAtMarker?_eq_none_iff.mpr (not_hasMarker_of_length_lt e.reception.scanner.length_held_lt)
      rw [hgo, hcontent, hnil, List.append_nil, List.append_nil]
      refine .inr ⟨hnone, [], c, e, failure, rest, List.nil_prefix, ?_, hloss, .refl _⟩
      rwa [List.append_nil]
  · cases hcut : cutAtMarker? (e.reception.scanner.held ++ c.pending) with
    | some parts => exact .of_complete h hnil hcut src
    | none =>
      apply Dialogue.Finishes.of_pending h hnil (cutAtMarker?_eq_none_iff.mp hcut)
      intro c' e' more h' hnone
      have hpos := List.length_pos_iff.mpr hnil
      exact h'.finishes src
termination_by 2 * src.size + c.pending.length
decreasing_by
  · simp only [hnil, List.nil_append, List.length_cons, List.length_nil] at hsize ⊢
    omega
  · omega
  · rw [hnone, List.length_nil]
    omega

/-! ## How it comes out -/

namespace Client

/-- What the server says to a request, from the line that it sends. -/
def replyOf (line : Bytes) : Response := Response.ofLine (Text.trimLineEnd (Utf8.decodeLossy line))

/-- The line by which a server takes up a download. -/
theorem accepts_transferStart :
    (replyOf (Utf8.encode (text "SUCCESS: FILE_TRANSFER_START"))).accepts downloadAccepted = true := by
  rw [replyOf, Utf8.decodeLossy_encode]
  decide

omit [Writer τ] [Writer κ] [Canceller δ] in
theorem acceptDownload_of_created {c : Client φ τ κ δ} {name : Text} {h : Gateway.Handle φ} {g : φ}
    (hcreate : Gateway.create c.files (c.localPath name) = (.ok h, g)) :
    c.acceptDownload name =
      { c with files := g, phase := .payload ⟨name, c.localPath name, some h, .fresh⟩ } := by
  simp only [acceptDownload, hcreate]

omit [Writer τ] [Writer κ] [Canceller δ] in
theorem acceptDownload_of_not_created {c : Client φ τ κ δ} {name : Text} {e : IoError} {g : φ}
    (hcreate : Gateway.create c.files (c.localPath name) = (.error e, g)) :
    c.acceptDownload name =
      { c with
        files := g
        phase := .payload ⟨name, c.localPath name, none, { Reception.fresh with failure := some e }⟩ } := by
  simp only [acceptDownload, hcreate]

omit [Writer κ] [Canceller δ] in
theorem takeLine_downloadReply {c : Client φ τ κ δ} {name : Text} (hphase : c.phase = .downloadReply name)
    (line : Bytes) :
    c.takeLine (Text.trimLineEnd (Utf8.decodeLossy line)) =
      if (replyOf line).accepts downloadAccepted then c.acceptDownload name else c.tell (replyOf line).render := by
  simp only [takeLine, hphase]
  rfl

/-- How a download that `c` is to ask for comes out if `all` is what its server sends. `kept` says of the local
files what they hold at the path, and `gone` that nothing is there. -/
inductive DownloadFate (kept : φ → Bytes → Prop) (gone : φ → Prop) (c : Client φ τ κ δ) (name : Text) (all : Bytes) :
    Client φ τ κ δ → Prop where
  | unasked {output : κ} {e : IoError}
      (hsend : Writer.send c.output (Utf8.encode (downloadRequest name ++ ['\n'])) = (.error e, output)) :
      DownloadFate kept gone c name all ({ c with output }.finish (.error (.sendRequest e)))
  | unanswered {output : κ} {pending : Bytes} {failure : ClientError} (hcut : cutAtNewline? all = none)
      (hloss : failure.IsLoss) :
      DownloadFate kept gone c name all ({ c with output, pending }.finish (.error failure))
  | refused {output : κ} {pending line rest : Bytes} (hcut : cutAtNewline? all = some (line, rest))
      (hreply : (replyOf line).accepts downloadAccepted = false) :
      DownloadFate kept gone c name all ({ c with output, pending }.tell (replyOf line).render)
  /-- The payload is in the file, and the user is told so. -/
  | stored {files : φ} {output : κ} {pending line rest payload after : Bytes}
      (hcut : cutAtNewline? all = some (line, rest)) (hreply : (replyOf line).accepts downloadAccepted = true)
      (hmarker : cutAtMarker? rest = some (payload, after)) (hkept : kept files payload) :
      DownloadFate kept gone c name all ({ c with files, output, pending }.tell (downloaded name payload.length))
  /-- The file could not be written whole, and was taken away. -/
  | discarded {files : φ} {output : κ} {pending line rest payload after : Bytes} {e : IoError}
      (hcut : cutAtNewline? all = some (line, rest)) (hreply : (replyOf line).accepts downloadAccepted = true)
      (hmarker : cutAtMarker? rest = some (payload, after)) (hgone : gone files) :
      DownloadFate kept gone c name all
        ({ c with files, output, pending }.tell (ClientError.localFile (c.localPath name) e).message)
  | unmade {files : φ} {output : κ} {pending line rest payload after : Bytes} {e : IoError}
      (hcut : cutAtNewline? all = some (line, rest)) (hreply : (replyOf line).accepts downloadAccepted = true)
      (hmarker : cutAtMarker? rest = some (payload, after))
      (hcreate : Gateway.create c.files (c.localPath name) = (.error e, files)) :
      DownloadFate kept gone c name all
        ({ c with files, output, pending }.tell (ClientError.localFile (c.localPath name) e).message)
  /-- The marker never comes. -/
  | lost {files : φ} {output : κ} {pending line rest : Bytes} {failure : ClientError}
      (hcut : cutAtNewline? all = some (line, rest)) (hreply : (replyOf line).accepts downloadAccepted = true)
      (hmarker : cutAtMarker? rest = none) (hloss : failure.IsLoss) :
      DownloadFate kept gone c name all ({ c with files, output, pending }.finish (.error failure))

/-- A message about a local file is not the line that a download ends with. -/
theorem message_ne_downloaded (path : Path) (e : IoError) (name : Text) (n : Nat) :
    (ClientError.localFile path e).message ≠ downloaded name n := by
  have hlocal : (ClientError.localFile path e).message.head? = some 'l' := rfl
  have hdownloaded : (downloaded name n).head? = some 'D' := rfl
  intro h
  rw [h, hdownloaded] at hlocal
  exact absurd hlocal (by decide)

section Fate

variable {opened : Sink φ → Bytes → Prop} {kept : φ → Bytes → Prop} {made : Sink φ → Prop} {gone : φ → Prop}
variable {c : Client φ τ κ δ} {name : Text} {all line rest pending : Bytes} {output : κ} {src : Source}

/-- Whatever becomes of the file at the marker, the rest is alike with and without one. -/
theorem exists_fate_of_begun {d : Download φ} {g : φ} (hfresh : d.reception.scanner = .empty)
    (hcut : cutAtNewline? all = some (line, rest)) (hreply : (replyOf line).accepts downloadAccepted = true)
    (hrest : pending ++ src.content = rest) {start : Client φ τ κ δ}
    (hstart : start = { c with files := g, output, pending, phase := .payload d })
    (hend : ∀ {payload after y} (pending' : Bytes), cutAtMarker? rest = some (payload, after) →
      Pours (d.reception.failure, (⟨g, d.handle⟩ : LocalSink φ)) payload y →
      DownloadFate kept gone c name all (({ c with
        files := (Reception.flushed y).2.files, output, pending := pending', phase := .payload d } :
          Client φ τ κ δ).completeDownload d
            ⟨.empty, d.reception.received + payload.length, (Reception.flushed y).1⟩)) :
    ∃ y, (⟨start, src⟩ : Dialogue φ τ κ δ).GoesTo y ∧ DownloadFate kept gone c name all y.client := by
  have hphase : start.phase = .payload d := by rw [hstart]
  have hall : d.reception.scanner.held ++ start.pending ++ src.content = rest := by
    rw [hfresh, hstart, ← hrest]
    rfl
  have hfate := (Downloading.begins hphase).finishes src
  rw [hall, hstart] at hfate
  rw [hstart]
  obtain ⟨payload, after, y, pending', left, hmarker, -, hpours, hgo⟩ |
    ⟨hmarker, more, c', e, failure, left, -, hdownloading, hloss, hgo⟩ := hfate
  · exact ⟨_, hgo, hend pending' hmarker hpours⟩
  · refine ⟨_, hgo, ?_⟩
    rw [hdownloading.client]
    exact .lost hcut hreply hmarker hloss

theorem exists_fate_of_created (hkeeps : KeepsWrites opened kept) (hdiscards : Discards (c.localPath name) made gone)
    {g : φ} {h : Gateway.Handle φ} (hopened : opened ⟨g, h⟩ []) (hmade : made ⟨g, h⟩)
    (hcut : cutAtNewline? all = some (line, rest)) (hreply : (replyOf line).accepts downloadAccepted = true)
    (hrest : pending ++ src.content = rest) {start : Client φ τ κ δ}
    (hstart : start = { c with
      files := g, output, pending, phase := .payload ⟨name, c.localPath name, some h, .fresh⟩ }) :
    ∃ y, (⟨start, src⟩ : Dialogue φ τ κ δ).GoesTo y ∧ DownloadFate kept gone c name all y.client := by
  refine exists_fate_of_begun rfl hcut hreply hrest hstart fun {payload after y} pending' hmarker hpours => ?_
  obtain ⟨failure, s⟩ := y
  have hhandle : s.handle = some h := LocalSink.handle_pours hpours
  obtain ⟨g', handle⟩ := s
  obtain rfl : handle = some h := hhandle
  have hwritten : Pours (none, (⟨g, h⟩ : Sink φ)) payload (failure, ⟨g', h⟩) := LocalSink.pours_some hpours
  have hmade' := hdiscards.flushed (hdiscards.pours hwritten hmade)
  have hkept' := hkeeps.flushed (x := (failure, ⟨g', h⟩)) (b := payload) fun hnone => by
    obtain rfl : failure = none := hnone
    exact hkeeps.pours hwritten hopened
  have hsame := handle_flushed (failure, (⟨g', h⟩ : Sink φ))
  rw [LocalSink.flushed_some]
  generalize Reception.flushed (failure, (⟨g', h⟩ : Sink φ)) = z at hmade' hkept' hsame
  obtain ⟨result, g'', h'⟩ := z
  obtain rfl : h' = h := hsame
  cases result with
  | none =>
    have hreceived : Reception.fresh.received + payload.length = payload.length := Nat.zero_add _
    rw [completeDownload_of_sound rfl rfl, ← tell_phase _ c.phase, hreceived]
    exact .stored hcut hreply hmarker (hkeeps.close (hkept' rfl))
  | some e =>
    rw [completeDownload_of_failed rfl rfl, ← tell_phase _ c.phase]
    exact .discarded hcut hreply hmarker (hdiscards.remove hmade')

theorem exists_fate_of_not_created {g : φ} {e : IoError}
    (hcreate : Gateway.create c.files (c.localPath name) = (.error e, g))
    (hcut : cutAtNewline? all = some (line, rest)) (hreply : (replyOf line).accepts downloadAccepted = true)
    (hrest : pending ++ src.content = rest) {start : Client φ τ κ δ}
    (hstart : start = { c with
      files := g, output, pending,
      phase := .payload ⟨name, c.localPath name, none, { Reception.fresh with failure := some e }⟩ }) :
    ∃ y, (⟨start, src⟩ : Dialogue φ τ κ δ).GoesTo y ∧ DownloadFate kept gone c name all y.client := by
  refine exists_fate_of_begun rfl hcut hreply hrest hstart fun {payload after y} pending' hmarker hpours => ?_
  obtain rfl := hpours.eq_of_failed
  rw [completeDownload_of_no_file rfl rfl, ← tell_phase _ c.phase]
  exact .unmade hcut hreply hmarker hcreate

theorem exists_fate_of_accepted (hkeeps : KeepsWrites opened kept) (hdiscards : Discards (c.localPath name) made gone)
    (hcreated : ∀ {h : Gateway.Handle φ} {g : φ}, Gateway.create c.files (c.localPath name) = (.ok h, g) →
      opened ⟨g, h⟩ [] ∧ made ⟨g, h⟩)
    (hcut : cutAtNewline? all = some (line, rest)) (hreply : (replyOf line).accepts downloadAccepted = true)
    (hrest : pending ++ src.content = rest) {start : Client φ τ κ δ}
    (hstart : start = { c with output, pending, phase := .downloadReply name }) :
    ∃ y, (⟨start.acceptDownload name, src⟩ : Dialogue φ τ κ δ).GoesTo y ∧
      DownloadFate kept gone c name all y.client := by
  subst hstart
  rcases hcreate : Gateway.create c.files (c.localPath name) with ⟨e | h, g⟩
  · exact exists_fate_of_not_created hcreate hcut hreply hrest (acceptDownload_of_not_created hcreate)
  · obtain ⟨hopened, hmade⟩ := hcreated hcreate
    exact exists_fate_of_created hkeeps hdiscards hopened hmade hcut hreply hrest (acceptDownload_of_created hcreate)

theorem exists_fate_of_asked (hkeeps : KeepsWrites opened kept) (hdiscards : Discards (c.localPath name) made gone)
    (hcreated : ∀ {h : Gateway.Handle φ} {g : φ}, Gateway.create c.files (c.localPath name) = (.ok h, g) →
      opened ⟨g, h⟩ [] ∧ made ⟨g, h⟩) {start : Client φ τ κ δ}
    (hstart : start = { c with output, phase := .downloadReply name }) (src : Source) :
    ∃ y, (⟨start, src⟩ : Dialogue φ τ κ δ).GoesTo y ∧
      DownloadFate kept gone c name (c.pending ++ src.content) y.client := by
  have hawaits : AwaitsLine start.phase := by
    rw [hstart]
    exact .downloadReply
  have hline := Dialogue.takesLine hawaits src
  rw [hstart] at hline ⊢
  obtain ⟨line, after, pending, left, hcut, hleft, hgo⟩ | ⟨hcut, failure, pending, left, hloss, hgo⟩ := hline
  · rw [takeLine_downloadReply rfl] at hgo
    cases hreply : (replyOf line).accepts downloadAccepted with
    | false =>
      rw [hreply, if_neg Bool.false_ne_true, tell_phase { c with output, pending }] at hgo
      exact ⟨_, hgo, .refused hcut hreply⟩
    | true =>
      rw [hreply, if_pos rfl] at hgo
      obtain ⟨y, hgo', hfate⟩ := exists_fate_of_accepted hkeeps hdiscards hcreated hcut hreply hleft rfl
      exact ⟨y, hgo.trans hgo', hfate⟩
  · exact ⟨_, hgo, .unanswered hcut hloss⟩

end Fate

/-- When a client that was told to `get` a file is done with it, either it has the payload in its file and says
so, or it says something else and there is no file that it made; unless its server is lost on the way. -/
theorem downloads_are_whole_or_removed {opened : Sink φ → Bytes → Prop} {kept : φ → Bytes → Prop}
    {made : Sink φ → Prop} {gone : φ → Prop} {c : Client φ τ κ δ} {line name : Text}
    (hverb : Text.firstWord line = text "get") (hname : Text.afterFirstWord line = name) (hne : name ≠ [])
    (hkeeps : KeepsWrites opened kept) (hdiscards : Discards (c.localPath name) made gone)
    (hcreated : ∀ {h : Gateway.Handle φ} {g : φ}, Gateway.create c.files (c.localPath name) = (.ok h, g) →
      opened ⟨g, h⟩ [] ∧ made ⟨g, h⟩) (src : Source) :
    (∀ e n, (ClientError.localFile (c.localPath name) e).message ≠ downloaded name n) ∧
      ∃ y, (⟨c.execute line, src⟩ : Dialogue φ τ κ δ).GoesTo y ∧
        DownloadFate kept gone c name (c.pending ++ src.content) y.client := by
  refine ⟨fun e n => message_ne_downloaded _ e name n, ?_⟩
  rw [execute_get hverb hname hne, ask]
  cases hsend : Writer.send c.output (Utf8.encode (downloadRequest name ++ ['\n'])) with
  | mk result output =>
    cases result with
    | error e => exact ⟨_, .refl _, .unasked hsend⟩
    | ok => exact exists_fate_of_asked hkeeps hdiscards hcreated rfl src

/-- The marker of a payload of three bytes comes in two pieces. -/
theorem downloads_are_whole_or_removed_cut_marker :
    let c : Client LocalFiles Pipe Pipe RequestLog :=
      ⟨⟨text "localhost", 1, 2, ⟨[Path.slash]⟩⟩, ⟨.empty, ⟨[Path.slash]⟩, []⟩, [], ⟨[]⟩, ⟨[]⟩, ⟨none, []⟩, [], .prompt⟩
    let src : Source := [.bytes (Utf8.encode (text "SUCCESS: FILE_TRANSFER_START\nabcFILE_")),
      .bytes (Utf8.encode (text "TRANSFER_END\n"))]
    ∃ y, (⟨c.execute (text "get a"), src⟩ : Dialogue LocalFiles Pipe Pipe RequestLog).GoesTo y ∧
      (LocalFiles.KeptAt ⟨[Path.slash, 97]⟩ y.client.files (Utf8.encode (text "abc")) ∨
        LocalFiles.GoneAt ⟨[Path.slash, 97]⟩ y.client.files) := by
  intro c src
  have hverb : Text.firstWord (text "get a") = text "get" := by decide
  have hname : Text.afterFirstWord (text "get a") = text "a" := by decide
  obtain ⟨f, hcreate, hopen⟩ := LocalFiles.create_empty
  have hmade := LocalFiles.madeAt_of_openAt (by decide) hopen
  obtain ⟨-, y, hgo, hfate⟩ := downloads_are_whole_or_removed (c := c) hverb hname (by decide)
    (LocalFiles.keepsWrites ⟨[Path.slash, 97]⟩) (LocalFiles.discards ⟨[Path.slash, 97]⟩) (fun {h g} hcreated => by
      cases hcreate.symm.trans hcreated
      exact ⟨hopen, hmade⟩) src
  refine ⟨y, hgo, ?_⟩
  have hline : cutAtNewline? (c.pending ++ src.content) = some (Utf8.encode (text "SUCCESS: FILE_TRANSFER_START"),
      Utf8.encode (text "abcFILE_TRANSFER_END\n")) := by decide
  have hcut : cutAtMarker? (Utf8.encode (text "abcFILE_TRANSFER_END\n")) = some (Utf8.encode (text "abc"), []) := by
    decide
  generalize y.client = t at hfate
  have hfiles (t : Client LocalFiles Pipe Pipe RequestLog) (said : Text) : (t.tell said).files = t.files := by
    obtain ⟨terminal, phase, htell⟩ := tell_eq t said
    rw [htell]
  cases hfate with
  | unasked hsend =>
    rw [Pipe.send_eq] at hsend
    cases hsend
  | unanswered hnone =>
    rw [hline] at hnone
    cases hnone
  | refused hsome hreply =>
    cases hline.symm.trans hsome
    rw [accepts_transferStart] at hreply
    cases hreply
  | stored hsome _ hmarker hkept =>
    cases hline.symm.trans hsome
    cases hcut.symm.trans hmarker
    left
    rwa [hfiles]
  | discarded _ _ _ hgone =>
    right
    rwa [hfiles]
  | unmade _ _ _ hunmade => cases hcreate.symm.trans hunmade
  | lost hsome _ hnone =>
    cases hline.symm.trans hsome
    rw [hcut] at hnone
    cases hnone

/-- Where the marker of a download is missing, the client ends in the middle of it. -/
theorem exists_downloading_of_lost {c : Client φ τ κ δ} {name : Text} {files : φ} {d : Download φ}
    (hphase : c.phase = .downloadReply name)
    (haccept : ∀ pending, ({ c with pending } : Client φ τ κ δ).acceptDownload name =
      { c with files, pending, phase := .payload d })
    (hfresh : d.reception.scanner = .empty) {src : Source} {line rest : Bytes}
    (hcut : cutAtNewline? (c.pending ++ src.content) = some (line, rest))
    (hreply : (replyOf line).accepts downloadAccepted = true) (hmarker : cutAtMarker? rest = none) :
    ∃ pending b c' e failure left,
      Downloading { c with files, pending, phase := .payload d } d b c' e ∧
        (⟨c, src⟩ : Dialogue φ τ κ δ).GoesTo ⟨c'.finish (.error failure), left⟩ := by
  have hawaits : AwaitsLine c.phase := by
    rw [hphase]
    exact .downloadReply
  obtain ⟨line', after, pending, left, hline, hleft, hgo⟩ | ⟨hline, -⟩ := Dialogue.takesLine hawaits src
  · cases hcut.symm.trans hline
    rw [takeLine_downloadReply (c := { c with pending }) hphase, hreply, if_pos rfl] at hgo
    rw [haccept] at hgo
    have hbegins : Downloading { c with files, pending, phase := .payload d } d []
        { c with files, pending, phase := .payload d } d := .begins rfl
    obtain ⟨payload, after', y, pending', left', hmarked, -⟩ |
      ⟨-, more, c', e, failure, left', -, hdownloading, -, hlost⟩ := hbegins.finishes left
    · rw [hfresh] at hmarked
      change cutAtMarker? (pending ++ left.content) = _ at hmarked
      rw [hleft, hmarker] at hmarked
      cases hmarked
    · exact ⟨pending, more, c', e, failure, left', hdownloading, hgo.trans hlost⟩
  · rw [hcut] at hline
    cases hline

/-- The server begins a download and is gone after ten bytes. -/
theorem lost_download_leaves_its_file :
    let c : Client LocalFiles Pipe Pipe RequestLog :=
      ⟨⟨text "localhost", 1, 2, ⟨[Path.slash]⟩⟩, ⟨.empty, ⟨[Path.slash]⟩, []⟩, [], ⟨[]⟩, ⟨[]⟩, ⟨none, []⟩, [], .prompt⟩
    let src : Source := [.bytes (Utf8.encode (text "SUCCESS: FILE_TRANSFER_START\nhalf of it"))]
    ∃ y failure b, (⟨c.execute (text "get a"), src⟩ : Dialogue LocalFiles Pipe Pipe RequestLog).GoesTo y ∧
      y.client.phase = .finished (.error failure) ∧ y.client.terminal = c.terminal ∧
      LocalFiles.KeptAt ⟨[Path.slash, 97]⟩ y.client.files b := by
  intro c src
  obtain ⟨f, hcreate, hopen⟩ := LocalFiles.create_empty
  have hverb : Text.firstWord (text "get a") = text "get" := by decide
  have hname : Text.afterFirstWord (text "get a") = text "a" := by decide
  have hline : cutAtNewline? (c.pending ++ src.content) =
      some (Utf8.encode (text "SUCCESS: FILE_TRANSFER_START"), Utf8.encode (text "half of it")) := by decide
  have hnone : cutAtMarker? (Utf8.encode (text "half of it")) = none := by decide
  have hpath : c.localPath (text "a") = ⟨[Path.slash, 97]⟩ := by decide
  rw [execute_get hverb hname (by decide), ask, Pipe.send_eq, ← hpath]
  rw [← hpath] at hcreate hopen
  let output : Pipe := ⟨c.output.inFlight ++ Utf8.encode (downloadRequest (text "a") ++ ['\n'])⟩
  let asked : Client LocalFiles Pipe Pipe RequestLog := { c with output, phase := .downloadReply (text "a") }
  let d : Download LocalFiles := ⟨text "a", c.localPath (text "a"), some (0 : Nat), .fresh⟩
  have haccept (pending : Bytes) : ({ asked with pending } : Client LocalFiles Pipe Pipe RequestLog).acceptDownload
      (text "a") = { asked with files := f, pending, phase := .payload d } := acceptDownload_of_created hcreate
  obtain ⟨pending, b, c', e, failure, left, hdownloading, hgo⟩ :=
    exists_downloading_of_lost rfl haccept rfl hline accepts_transferStart hnone
  refine ⟨_, failure, b, hgo, rfl, ?_, ?_⟩
  · change c'.terminal = c.terminal
    rw [hdownloading.client]
  · obtain ⟨-, hheld⟩ := (LocalFiles.storesAt _).accepts.pours (LocalSink.pours_some hdownloading.pours) hopen
    exact (LocalFiles.storesAt _).close hheld

end Client

end FileFerry
