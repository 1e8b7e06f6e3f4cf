import FileFerry.Client.Connection
import FileFerry.Proofs.Lines
import FileFerry.Proofs.Reception
import FileFerry.Stream.Scripted

/-!
# What a client reads, however it is delivered

A client reads lines and payloads from its connection in any order. `Serves` says what a call comes to
from the bytes that are still to be read as a whole, and what it leaves of them. A connection does so
under every delivery of these bytes (`calls_do_not_depend_on_delivery`). Only the pieces in which a
payload is written to its sink differ, so a sink that fails may do so earlier or later.
-/

set_option autoImplicit false

namespace FileFerry

/-- A call on a connection: for a line, or for a payload that is written to a sink. -/
inductive Call (σ : Type) where
  | line
  | payload (sink : σ)

/-- What a call came to: the line; or the count of the payload's bytes with the first failure of the
sink, and the sink as it was left. -/
inductive Outcome (σ : Type) where
  | line (result : Except ClientError Text)
  | payload (result : Except ClientError (Nat × Option IoError)) (sink : σ)

/-- What the connection itself reports, without what became of a sink. -/
inductive Report where
  | line (content : Text)
  | payload (count : Nat)
  | failed (error : ClientError)

section

variable {σ : Type}

def Outcome.report : Outcome σ → Report
  | .line (.ok content) => .line content
  | .line (.error e) => .failed e
  | .payload (.ok (count, _)) _ => .payload count
  | .payload (.error e) _ => .failed e

/-- What is to be reported of a call with `rest` before it, and what is to be left. -/
def Call.due (rest : Bytes) : Call σ → Report × Bytes
  | .line =>
    match cutAtNewline? rest with
    | some (b, after) => (.line (Text.trimLineEnd (Utf8.decodeLossy b)), after)
    | none => (.failed .disconnected, rest)
  | .payload _ =>
    match cutAtMarker? rest with
    | some (b, after) => (.payload b.length, after)
    | none => (.failed .disconnected, [])

/-- Calls one after another, each of which finds what the one before it left. -/
inductive InTurn (R : Bytes → Call σ → Outcome σ → Bytes → Prop) :
    Bytes → List (Call σ) → List (Outcome σ) → Bytes → Prop where
  | done (rest : Bytes) : InTurn R rest [] [] rest
  | next {rest rest' last : Bytes} {call : Call σ} {outcome : Outcome σ} {calls : List (Call σ)}
      {outcomes : List (Outcome σ)} (first : R rest call outcome rest')
      (more : InTurn R rest' calls outcomes last) : InTurn R rest (call :: calls) (outcome :: outcomes) last

theorem InTurn.imp {R S : Bytes → Call σ → Outcome σ → Bytes → Prop}
    (himp : ∀ {rest call outcome rest'}, R rest call outcome rest' → S rest call outcome rest')
    {rest last : Bytes} {calls : List (Call σ)} {outcomes : List (Outcome σ)}
    (h : InTurn R rest calls outcomes last) : InTurn S rest calls outcomes last := by
  induction h with
  | done rest => exact .done rest
  | next first _ ih => exact .next (himp first) ih

variable [Writer σ]

/-- What a call comes to with `rest` before it, and what it leaves. A line is cut off at its newline. A payload
is written to its sink up to the marker as far as that goes well, the sink is flushed once if it does, and
the first failure is reported. A payload that breaks off is written but for what may begin a marker. -/
inductive Serves : Bytes → Call σ → Outcome σ → Bytes → Prop where
  | line {rest line after : Bytes} (hcut : cutAtNewline? rest = some (line, after)) :
      Serves rest .line (.line (.ok (Text.trimLineEnd (Utf8.decodeLossy line)))) after
  | lineLost {rest : Bytes} (hcut : cutAtNewline? rest = none) :
      Serves rest .line (.line (.error .disconnected)) rest
  | payload {rest payload after : Bytes} {sink sink' sink'' : σ} {result : Except IoError Unit}
      (hcut : cutAtMarker? rest = some (payload, after)) (hpours : Pours (none, sink) payload (none, sink'))
      (hflush : Writer.flush sink' = (result, sink'')) :
      Serves rest (.payload sink) (.payload (.ok (payload.length, failureOf result)) sink'') after
  | sinkFailed {rest payload after : Bytes} {sink sink' : σ} {e : IoError}
      (hcut : cutAtMarker? rest = some (payload, after)) (hpours : Pours (none, sink) payload (some e, sink')) :
      Serves rest (.payload sink) (.payload (.ok (payload.length, some e)) sink') after
  | payloadLost {rest : Bytes} {sink sink' : σ} {failure : Option IoError} (hcut : cutAtMarker? rest = none)
      (hpours : Pours (none, sink) (rest.take (rest.length - holdBack)) (failure, sink')) :
      Serves rest (.payload sink) (.payload (.error .disconnected) sink') []

/-- A sink that takes everything has the payload behind what it held, and was then flushed. -/
def Stored (holds : σ → Bytes → Prop) (rest : Bytes) (call : Call σ) (outcome : Outcome σ) (after : Bytes) :
    Prop :=
  ∀ {sink : σ} {held payload behind : Bytes}, call = .payload sink → holds sink held →
    cutAtMarker? rest = some (payload, behind) →
    after = behind ∧ ∃ whole flushed, holds whole (held ++ payload) ∧
      Writer.flush whole = (.ok (), flushed) ∧ outcome = .payload (.ok (payload.length, none)) flushed

namespace Serves

variable {rest after after' : Bytes} {call : Call σ} {outcome outcome' : Outcome σ}

theorem report_eq_due (h : Serves rest call outcome after) : (outcome.report, after) = call.due rest := by
  cases h with
  | line hcut | lineLost hcut =>
    simp only [Call.due, hcut]
    rfl
  | payload hcut | sinkFailed hcut | payloadLost hcut =>
    simp only [Call.due, hcut]
    rfl

/-- The bytes alone decide what is reported and what is left. -/
theorem report_eq (h : Serves rest call outcome after) (h' : Serves rest call outcome' after') :
    outcome.report = outcome'.report ∧ after = after' :=
  Prod.mk.inj (h.report_eq_due.trans h'.report_eq_due.symm)

theorem stored {holds : σ → Bytes → Prop} (haccepts : Writer.Accepts holds)
    (h : Serves rest call outcome after) : Stored holds rest call outcome after := by
  intro sink held payload behind hcall hheld hpayload
  cases h with
  | line => cases hcall
  | lineLost => cases hcall
  | payload hcut hpours hflush =>
    cases hcall
    rw [hcut] at hpayload
    cases hpayload
    obtain ⟨-, hwhole⟩ := haccepts.pours hpours hheld
    obtain ⟨flushed, hflushed, -⟩ := haccepts.flush hwhole
    rw [hflush] at hflushed
    cases hflushed
    exact ⟨rfl, _, _, hwhole, hflush, rfl⟩
  | sinkFailed hcut hpours =>
    cases hcall
    cases (haccepts.pours hpours hheld).1
  | payloadLost hcut =>
    rw [hcut] at hpayload
    cases hpayload

end Serves

theorem InTurn.report_eq {rest last last' : Bytes} {calls : List (Call σ)}
    {outcomes outcomes' : List (Outcome σ)} (h : InTurn Serves rest calls outcomes last)
    (h' : InTurn Serves rest calls outcomes' last') :
    outcomes.map Outcome.report = outcomes'.map Outcome.report ∧ last = last' := by
  induction h generalizing outcomes' with
  | done rest =>
    cases h'
    exact ⟨rfl, rfl⟩
  | next first _ ih =>
    cases h' with
    | next first' more' =>
      obtain ⟨hreport, rfl⟩ := first.report_eq first'
      obtain ⟨hreports, rfl⟩ := ih more'
      exact ⟨congrArg₂ List.cons hreport hreports, rfl⟩

end

namespace Connection

variable {ω : Type}

/-- What is still to be read of what the server sends. -/
def remaining (c : Connection ω) : Bytes := c.pending ++ c.incoming.content

/-! ## One read -/

/-- Where the stream only ends, a read brings what is next, or finds the end and nothing to come. -/
theorem readSome_of_sound {c : Connection ω} (h : c.incoming.failure? = none) :
    (∃ chunk rest, c.readSome = (.ok chunk, { c with incoming := rest }) ∧ rest.failure? = none ∧
      c.incoming.content = chunk ++ rest.content) ∨
      c.readSome = (.error .disconnected, { c with incoming := [] }) ∧ c.incoming.content = [] := by
  cases hread : c.incoming.readAgain chunkSize with
  | mk result rest =>
    cases result with
    | error e =>
      rw [Source.failure?_of_readAgain_error hread] at h
      cases h
    | ok chunk =>
      cases chunk with
      | nil =>
        refine .inr ⟨?_, Source.content_of_readAgain_end (by decide) hread⟩
        obtain rfl := Source.rest_of_readAgain_end (by decide) hread
        simp only [readSome, hread]
      | cons b bs =>
        refine .inl ⟨b :: bs, rest, ?_, ?_, Source.content_of_readAgain_ok hread⟩
        · simp only [readSome, hread]
        · rwa [Source.failure?_of_readAgain_ok hread]

/-! ## One call -/

section

variable {σ : Type} [Writer σ]

theorem serves_readLine {c : Connection ω} (h : c.incoming.failure? = none) :
    Serves (σ := σ) c.remaining .line (.line c.readLine.1) c.readLine.2.remaining ∧
      c.readLine.2.incoming.failure? = none := by
  fun_induction readLine c with
  | case1 c line rest htake =>
    obtain ⟨⟨before, after⟩, hcut, heq⟩ := Option.map_eq_some_iff.mp htake
    obtain ⟨rfl, rfl⟩ := Prod.mk.inj heq
    exact ⟨.line (cutAtNewline?_append hcut _), h⟩
  | case2 c htake e c' hread =>
    have hnone : cutAtNewline? c.pending = none := Option.map_eq_none_iff.mp htake
    rcases readSome_of_sound h with ⟨chunk, rest, hsome, -⟩ | ⟨hend, hcontent⟩
    · rw [hread] at hsome
      cases hsome
    · rw [hread] at hend
      cases hend
      have hall : c.remaining = c.pending := by rw [remaining, hcontent, List.append_nil]
      have hleft : remaining { c with incoming := [] } = c.pending := List.append_nil _
      rw [hall, hleft]
      exact ⟨.lineLost hnone, rfl⟩
  | case3 c htake chunk c' hread ih =>
    rcases readSome_of_sound h with ⟨chunk', rest, hsome, hsound, hcontent⟩ | ⟨hend, -⟩
    · rw [hread] at hsome
      cases hsome
      have hall : c.remaining = remaining ⟨rest, c.pending ++ chunk, c.output⟩ := by
        rw [remaining, hcontent, ← List.append_assoc]
        rfl
      rw [hall]
      exact ih hsound
    · rw [hread] at hend
      cases hend

/-- What receiving a payload comes to, with `all` before the scanner, and what it leaves. -/
inductive Receives (r : Reception) (sink : σ) (all : Bytes) :
    Except ClientError Reception → σ → Bytes → Prop where
  | whole {payload after : Bytes} {x : Option IoError × σ} (hcut : cutAtMarker? all = some (payload, after))
      (hpours : Pours (r.failure, sink) payload x) :
      Receives r sink all (.ok ⟨.empty, r.received + payload.length, (Reception.flushed x).1⟩)
        (Reception.flushed x).2 after
  | broken {x : Option IoError × σ} (hcut : cutAtMarker? all = none)
      (hpours : Pours (r.failure, sink) (all.take (all.length - holdBack)) x) :
      Receives r sink all (.error .disconnected) x.2 []

theorem Receives.released {r r' : Reception} {sink sink' sink'' : σ} {released window rest after : Bytes}
    {result : Except ClientError Reception} (hn : ¬ HasMarker (released ++ window))
    (hwindow : released = [] ∨ holdBack ≤ window.length) (hcount : r'.received = r.received + released.length)
    (hpours : Pours (r.failure, sink) released (r'.failure, sink'))
    (h : Receives r' sink' (window ++ rest) result sink'' after) :
    Receives r sink (released ++ (window ++ rest)) result sink'' after := by
  have hcuts := cutAtMarker?_append_of_none_begins (none_begins_before_window hn hwindow rest)
  cases h with
  | @whole payload after x hcut hmore =>
    rw [hcut] at hcuts
    rw [hcount, Nat.add_assoc, ← List.length_append]
    exact .whole hcuts (hpours.trans hmore)
  | broken hcut hmore =>
    rw [hcut] at hcuts
    refine .broken hcuts ?_
    have hsplit : (released ++ (window ++ rest)).take ((released ++ (window ++ rest)).length - holdBack) =
        released ++ (window ++ rest).take ((window ++ rest).length - holdBack) := by
      rcases hwindow with rfl | hwindow
      · rfl
      · have hlen : (released ++ (window ++ rest)).length - holdBack =
            released.length + ((window ++ rest).length - holdBack) := by
          simp only [List.length_append]
          omega
        rw [hlen, List.take_length_add_append]
    rw [hsplit]
    exact hpours.trans hmore

/-- A chunk without the marker belongs to the payload, but for what is held back of it. -/
theorem Receives.of_pending {r r' : Reception} {sink sink' sink'' : σ} {chunk rest after : Bytes}
    {result : Except ClientError Reception} (htake : r.take sink chunk = (none, r', sink'))
    (h : Receives r' sink' (r'.scanner.held ++ rest) result sink'' after) :
    Receives r sink (r.scanner.held ++ chunk ++ rest) result sink'' after := by
  have hn : ¬ HasMarker (r.scanner.held ++ chunk) := by
    rw [← cutAtMarker?_eq_none_iff, Option.eq_none_iff_forall_ne_some]
    rintro ⟨payload, trailing⟩ hcut
    obtain ⟨_, -, hsome⟩ := Reception.take_of_cut hcut sink
    rw [htake] at hsome
    cases hsome
  obtain ⟨released, _, _, hnone, hsplit, hwindow, hcount, hpours⟩ := Reception.take_of_not_hasMarker hn sink
  rw [htake] at hnone
  cases hnone
  rw [← hsplit] at hn ⊢
  rw [List.append_assoc]
  exact h.released hn hwindow hcount hpours

/-- The chunk with the marker in it ends the payload. -/
theorem Receives.of_complete {r r' : Reception} {sink sink' : σ} {chunk trailing : Bytes}
    (htake : r.take sink chunk = (some trailing, r', sink')) (rest : Bytes) :
    Receives r sink (r.scanner.held ++ chunk ++ rest) (.ok r') sink' (trailing ++ rest) := by
  cases hcut : cutAtMarker? (r.scanner.held ++ chunk) with
  | none =>
    obtain ⟨_, _, _, hnone, -⟩ := Reception.take_of_not_hasMarker (cutAtMarker?_eq_none_iff.mp hcut) sink
    rw [htake] at hnone
    cases hnone
  | some parts =>
    obtain ⟨x, hpours, hsome⟩ := Reception.take_of_cut hcut sink
    rw [htake] at hsome
    cases hsome
    exact .whole (cutAtMarker?_append_of_some hcut rest) hpours

/-- Nothing comes any more, and what is held begins no marker. -/
theorem Receives.lost (r : Reception) (sink : σ) :
    Receives r sink r.scanner.held (.error .disconnected) sink [] := by
  have hshort := r.scanner.length_held_lt
  refine .broken (x := (r.failure, sink)) ?_ ?_
  · exact cutAtMarker?_eq_none_iff.mpr (not_hasMarker_of_length_lt hshort)
  · have hnone : r.scanner.held.length - holdBack = 0 := by
      rw [holdBack_eq, length_endMarker] at *
      omega
    rw [hnone]
    exact .done _

theorem receives_receiveFrom {c : Connection ω} (h : c.incoming.failure? = none) (hpending : c.pending = [])
    (r : Reception) (sink : σ) (chunk : Bytes) :
    Receives r sink (r.scanner.held ++ chunk ++ c.incoming.content) (c.receiveFrom r sink chunk).1
        (c.receiveFrom r sink chunk).2.1 (c.receiveFrom r sink chunk).2.2.remaining ∧
      (c.receiveFrom r sink chunk).2.2.incoming.failure? = none := by
  fun_induction receiveFrom c r sink chunk with
  | case1 c r sink chunk trailing r' sink' htake => exact ⟨.of_complete htake _, h⟩
  | case2 c r sink chunk r' sink' htake e c' hread =>
    rcases readSome_of_sound h with ⟨_, _, hsome, -⟩ | ⟨hend, hcontent⟩
    · rw [hread] at hsome
      cases hsome
    · rw [hread] at hend
      cases hend
      have hleft : remaining { c with incoming := [] } = [] := by
        rw [remaining, hpending]
        rfl
      rw [hcontent, hleft]
      refine ⟨.of_pending htake ?_, rfl⟩
      rw [List.append_nil]
      exact .lost r' sink'
  | case3 c r sink chunk r' sink' htake chunk' c' hread ih =>
    rcases readSome_of_sound h with ⟨_, _, hsome, hsound, hcontent⟩ | ⟨hend, -⟩
    · rw [hread] at hsome
      cases hsome
      obtain ⟨hreceives, hleft⟩ := ih hsound hpending
      rw [List.append_assoc, ← hcontent] at hreceives
      exact ⟨.of_pending htake hreceives, hleft⟩
    · rw [hread] at hend
      cases hend

/-- One call on a connection. -/
def call (c : Connection ω) : Call σ → Outcome σ × Connection ω
  | .line =>
    let (result, c) := c.readLine
    (.line result, c)
  | .payload sink =>
    let (result, sink, c) := c.receivePayload sink
    (.payload (result.map fun r => (r.received, r.failure)) sink, c)

theorem serves_payload {sink sink' : σ} {rest after : Bytes} {result : Except ClientError Reception}
    (h : Receives .fresh sink rest result sink' after) :
    Serves rest (.payload sink) (.payload (result.map fun r => (r.received, r.failure)) sink') after := by
  cases h with
  | @whole payload after x hcut hpours =>
    have hcount : Reception.fresh.received + payload.length = payload.length := Nat.zero_add _
    rw [hcount]
    obtain ⟨failure, whole⟩ := x
    cases failure with
    | none =>
      simp only [Reception.flushed, attempt_none]
      exact .payload hcut hpours rfl
    | some e => exact .sinkFailed hcut hpours
  | broken hcut hpours => exact .payloadLost hcut hpours

/-- Every call is served from what is still to be read, and leaves the rest of it. -/
theorem serves_call {c : Connection ω} (h : c.incoming.failure? = none) (call : Call σ) :
    Serves c.remaining call (c.call call).1 (c.call call).2.remaining ∧
      (c.call call).2.incoming.failure? = none := by
  cases call with
  | line => exact serves_readLine h
  | payload sink =>
    obtain ⟨hreceives, hleft⟩ := receives_receiveFrom (c := { c with pending := [] }) h rfl .fresh sink c.pending
    exact ⟨serves_payload hreceives, hleft⟩

/-! ## Calls in any order -/

def callAll (c : Connection ω) : List (Call σ) → List (Outcome σ) × Connection ω
  | [] => ([], c)
  | call :: calls =>
    let (outcome, c) := c.call call
    let (outcomes, c) := c.callAll calls
    (outcome :: outcomes, c)

theorem serves_callAll {c : Connection ω} (h : c.incoming.failure? = none) (calls : List (Call σ)) :
    InTurn Serves c.remaining calls (c.callAll calls).1 (c.callAll calls).2.remaining := by
  induction calls generalizing c with
  | nil => exact .done _
  | cons call calls ih =>
    obtain ⟨hserves, hleft⟩ := serves_call h call
    exact .next hserves (ih hleft)

/-- However the bytes of a server are cut and interrupted before they end, the calls of a client come to what
these bytes hold for them: a line is the text up to the next newline; a payload is what comes before the next
marker, whatever its sink does; without a newline or a marker the server is gone. So two deliveries give the
same lines, counts and failures, and leave the same bytes to be read. A sink is written to up to its
first failure, which is reported; one that takes everything has each payload whole and is flushed once. -/
theorem calls_do_not_depend_on_delivery {c c' : Connection ω} {sent : Bytes} (hsent : c.remaining = sent)
    (hsent' : c'.remaining = sent) (hend : c.incoming.failure? = none) (hend' : c'.incoming.failure? = none)
    (calls : List (Call σ)) :
    let outcomes := (c.callAll calls).1
    let left := (c.callAll calls).2.remaining
    InTurn Serves sent calls outcomes left ∧
      (∀ {holds : σ → Bytes → Prop}, Writer.Accepts holds → InTurn (Stored holds) sent calls outcomes left) ∧
      (c'.callAll calls).1.map Outcome.report = outcomes.map Outcome.report ∧
      (c'.callAll calls).2.remaining = left := by
  intro outcomes left
  have hserves := serves_callAll hend calls
  have hserves' := serves_callAll hend' calls
  rw [hsent] at hserves
  rw [hsent'] at hserves'
  exact ⟨hserves, fun haccepts => hserves.imp fun h => h.stored haccepts, hserves'.report_eq hserves⟩

/-- A line, a payload whose sink fails, and a line: in one delivery, and with every boundary inside a piece. -/
theorem calls_do_not_depend_on_delivery_mixed :
    let full : IoError := .plain .storageFull
    let sink : ScriptedWriter := ⟨#[], [some full], [], none, none⟩
    let sent := Utf8.encode (text "ok\r\nabcFILE_TRANSFER_END\nlast\n")
    let whole : Connection Unit := ⟨[.bytes sent], [], ()⟩
    let pieces : Connection Unit :=
      ⟨[.bytes (Utf8.encode (text "bcFILE_")), .failure (.plain .interrupted),
        .bytes (Utf8.encode (text "TRANSFER_END\nla")), .bytes (Utf8.encode (text "st\n"))],
        Utf8.encode (text "ok\r\na"), ()⟩
    let calls := [.line, .payload sink, .line]
    (pieces.callAll calls).1.map Outcome.report = [.line (text "ok"), .payload 3, .line (text "last")] ∧
      (pieces.callAll calls).2.remaining = (whole.callAll calls).2.remaining := by
  intro full sink sent whole pieces calls
  have hsent : whole.remaining = sent := by decide +kernel
  have hsent' : pieces.remaining = sent := by decide +kernel
  obtain ⟨hserves, -, hreports, hleft⟩ := calls_do_not_depend_on_delivery hsent hsent' rfl rfl calls
  have hpours : Pours (none, sink) (Utf8.encode (text "abc")) (some full, ScriptedWriter.accepting) :=
    .fails (b := Utf8.encode (text "abc")) (by decide) rfl rfl []
  have hok : Serves (σ := ScriptedWriter) sent .line
      (.line (.ok (Text.trimLineEnd (Utf8.decodeLossy (Utf8.encode (text "ok\r"))))))
      (Utf8.encode (text "abcFILE_TRANSFER_END\nlast\n")) := .line (by decide +kernel)
  have hcut : cutAtMarker? (Utf8.encode (text "abcFILE_TRANSFER_END\nlast\n")) =
      some (Utf8.encode (text "abc"), Utf8.encode (text "last\n")) := by decide +kernel
  have hpayload : Serves _ (.payload sink) (.payload (.ok (3, some full)) .accepting) _ :=
    Serves.sinkFailed hcut hpours
  have hlast : Serves (σ := ScriptedWriter) (Utf8.encode (text "last\n")) .line
      (.line (.ok (Text.trimLineEnd (Utf8.decodeLossy (Utf8.encode (text "last")))))) [] :=
    .line (by decide +kernel)
  have hreference := hserves.report_eq (.next hok (.next hpayload (.next hlast (.done []))))
  refine ⟨?_, hleft⟩
  rw [hreports, hreference.1]
  simp only [List.map, Outcome.report, List.cons.injEq, Report.line.injEq, and_true]
  decide +kernel

end

end Connection

end FileFerry
