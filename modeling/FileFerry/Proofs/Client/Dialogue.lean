import FileFerry.Client.Run
import FileFerry.Proofs.Lines
import FileFerry.Proofs.Streams
import Mathlib.Logic.Function.Iterate

/-!
# A client and what its server sends, step by step

A dialogue is a client together with what its server will still send. It goes on by one step at a time: a
step of the client, or one read when the client waits. A whole run of the client is where these steps
lead (`exists_goesTo_run`), and one that ends has a last step (`exists_last_step`).
-/

set_option autoImplicit false

namespace FileFerry

variable {φ τ κ δ : Type} [Gateway φ]

/-- The failures by which a client loses its server while it reads. -/
inductive ClientError.IsLoss : ClientError → Prop where
  | ended : IsLoss .disconnected
  | failed {e : IoError} (he : e.isInterrupted = false) : IsLoss (.readResponse e)

namespace Client

/-- What a client that waits for a line from its server is about. -/
inductive AwaitsLine : ClientPhase φ → Prop where
  | greeting : AwaitsLine .greeting
  | reply : AwaitsLine .reply
  | downloadReply {name : Text} : AwaitsLine (.downloadReply name)
  | uploadReply {name : Text} {path : Path} {source : Source} : AwaitsLine (.uploadReply name path source)
  | verdict {path : Path} {sent : Transmission} : AwaitsLine (.verdict path sent)

variable [Writer τ] [Writer κ] [Canceller δ]

theorem advance?_of_awaitsLine {c : Client φ τ κ δ} (h : AwaitsLine c.phase) :
    c.advance? = (takeLine? c.pending).map fun (line, rest) => ({ c with pending := rest }).takeLine line := by
  generalize hp : c.phase = phase at h
  unfold advance?
  cases h <;> simp only [hp] <;> cases takeLine? c.pending <;> rfl

theorem advance?_of_isFinished {c : Client φ τ κ δ} (h : c.isFinished = true) : c.advance? = none := by
  unfold isFinished at h
  split at h
  · rename_i result hp
    simp only [advance?, hp]
  · cases h

theorem advance?_drain (c : Client φ τ κ δ) : c.drain.advance? = none := by
  fun_induction drain c with
  | case1 c h => exact h
  | case2 c c' h ih => exact ih

/-! ## Reads -/

theorem receive_of_isFinished {c : Client φ τ κ δ} (h : c.isFinished = true) (result : ReadResult) :
    c.receive result = c := if_pos h

theorem advance?_receive {c : Client φ τ κ δ} (h : c.advance? = none) (result : ReadResult) :
    (c.receive result).advance? = none := by
  unfold receive
  split
  · exact h
  · split
    · split
      · exact h
      · rfl
    · rfl
    · exact advance?_drain _

theorem advance?_deliver {c : Client φ τ κ δ} (h : c.advance? = none) (content : Bytes) :
    (c.deliver content).advance? = none := by
  fun_induction deliver c content with
  | case1 c => exact h
  | case2 c b bs ih => exact ih (advance?_receive h _)

theorem advance?_take {c : Client φ τ κ δ} (h : c.advance? = none) (arrival : Arrival) :
    (c.take arrival).advance? = none := by
  cases arrival with
  | bytes content => exact advance?_deliver h content
  | failure e => exact advance?_receive h (.error e)

theorem deliver_of_isFinished {c : Client φ τ κ δ} (h : c.isFinished = true) (content : Bytes) :
    c.deliver content = c := by
  fun_induction deliver c content with
  | case1 c => rfl
  | case2 c b bs ih =>
    rw [receive_of_isFinished h] at ih
    rw [receive_of_isFinished h]
    exact ih h

theorem run_of_isFinished {c : Client φ τ κ δ} (h : c.isFinished = true) (src : Source) : c.run src = c := by
  have htake (arrival : Arrival) : c.take arrival = c := by
    cases arrival with
    | bytes content => exact deliver_of_isFinished h content
    | failure e => exact receive_of_isFinished h (.error e)
  have hall : src.foldl take c = c := by
    induction src with
    | nil => rfl
    | cons arrival src ih => rw [List.foldl_cons, htake, ih]
  rw [run, hall, receive_of_isFinished h]

theorem isFinished_run (c : Client φ τ κ δ) (src : Source) : (c.run src).isFinished = true := by
  unfold run receive
  split
  · assumption
  · rfl

/-- Takes the result of a read, and leaves what there is to be done with bytes to the steps that follow. -/
def hear (c : Client φ τ κ δ) (result : ReadResult) : Client φ τ κ δ :=
  match result with
  | .ok (b :: bs) => { c with pending := c.pending ++ b :: bs }
  | _ => c.receive result

theorem hear_of_interrupted {c : Client φ τ κ δ} {e : IoError} (he : e.isInterrupted = true) :
    c.hear (.error e) = c := by
  simp [hear, receive, he]

theorem hear_of_error {c : Client φ τ κ δ} (hopen : c.isFinished = false) {e : IoError}
    (he : e.isInterrupted = false) : c.hear (.error e) = c.finish (.error (.readResponse e)) := by
  simp [hear, receive, hopen, he]

theorem hear_of_end {c : Client φ τ κ δ} (hopen : c.isFinished = false) :
    c.hear (.ok []) = c.finish (.error .disconnected) := by
  simp [hear, receive, hopen]

end Client

structure Dialogue (φ τ κ δ : Type) [Gateway φ] where
  client : Client φ τ κ δ
  /-- What the server will still send. -/
  source : Source

namespace Dialogue

variable [Writer τ] [Writer κ] [Canceller δ]

/-- One step. A client that waits reads once; one that has ended stays as it is. -/
def go (x : Dialogue φ τ κ δ) : Dialogue φ τ κ δ :=
  match x.client.advance? with
  | some c => { x with client := c }
  | none =>
    if x.client.isFinished then x
    else ⟨x.client.hear (x.source.read chunkSize).1, (x.source.read chunkSize).2⟩

theorem go_of_advance? {x : Dialogue φ τ κ δ} {c : Client φ τ κ δ} (h : x.client.advance? = some c) :
    x.go = { x with client := c } := by
  simp only [go, h]

theorem go_of_waits {x : Dialogue φ τ κ δ} (h : x.client.advance? = none) (hopen : x.client.isFinished = false)
    {result : ReadResult} {rest : Source} (hread : x.source.read chunkSize = (result, rest)) :
    x.go = ⟨x.client.hear result, rest⟩ := by
  simp only [go, h, hopen, hread, Bool.false_eq_true, if_false]

theorem go_of_isFinished {x : Dialogue φ τ κ δ} (h : x.client.isFinished = true) : x.go = x := by
  simp only [go, Client.advance?_of_isFinished h, h, if_true]

def GoesTo (x y : Dialogue φ τ κ δ) : Prop := ∃ n : Nat, go^[n] x = y

theorem GoesTo.refl (x : Dialogue φ τ κ δ) : x.GoesTo x := ⟨0, rfl⟩

theorem GoesTo.head {x y : Dialogue φ τ κ δ} (h : x.go.GoesTo y) : x.GoesTo y := by
  obtain ⟨n, hn⟩ := h
  exact ⟨n + 1, hn⟩

theorem GoesTo.trans {x y z : Dialogue φ τ κ δ} (h : x.GoesTo y) (h' : y.GoesTo z) : x.GoesTo z := by
  obtain ⟨n, rfl⟩ := h
  obtain ⟨m, rfl⟩ := h'
  exact ⟨m + n, Function.iterate_add_apply go m n x⟩

theorem GoesTo.step {c c' : Client φ τ κ δ} (h : c.advance? = some c') (src : Source) :
    (⟨c, src⟩ : Dialogue φ τ κ δ).GoesTo ⟨c', src⟩ := by
  apply GoesTo.head
  rw [go_of_advance? h]
  exact .refl _

/-- A client that ended did so by one step. -/
theorem exists_last_step {x y : Dialogue φ τ κ δ} (h : x.GoesTo y) (hopen : x.client.isFinished = false)
    (hend : y.client.isFinished = true) : ∃ z, x.GoesTo z ∧ z.client.isFinished = false ∧ z.go = y := by
  obtain ⟨n, rfl⟩ := h
  induction n with
  | zero =>
    change x.client.isFinished = true at hend
    rw [hopen] at hend
    cases hend
  | succ n ih =>
    rw [Function.iterate_succ_apply'] at hend ⊢
    cases hbefore : (go^[n] x).client.isFinished with
    | true =>
      rw [go_of_isFinished hbefore] at hend ⊢
      exact ih hend
    | false => exact ⟨go^[n] x, ⟨n, rfl⟩, hbefore, rfl⟩

/-- A waiting client reads some of what is still to come, is interrupted, or loses its server. -/
theorem go_of_read {c : Client φ τ κ δ} (h : c.advance? = none) (hopen : c.isFinished = false) (src : Source) :
    (∃ b bs rest, src.content = b :: bs ++ rest.content ∧ rest.size + (b :: bs).length ≤ src.size ∧
        (⟨c, src⟩ : Dialogue φ τ κ δ).go = ⟨{ c with pending := c.pending ++ b :: bs }, rest⟩) ∨
      (∃ rest, src.content = rest.content ∧ rest.size < src.size ∧
        (⟨c, src⟩ : Dialogue φ τ κ δ).go = ⟨c, rest⟩) ∨
      ∃ failure rest, src.content = [] ∧ failure.IsLoss ∧
        (⟨c, src⟩ : Dialogue φ τ κ δ).go = ⟨c.finish (.error failure), rest⟩ := by
  cases hread : src.read chunkSize with
  | mk result rest =>
    have hgo : (⟨c, src⟩ : Dialogue φ τ κ δ).go = ⟨c.hear result, rest⟩ := go_of_waits h hopen hread
    rcases result with e | _ | ⟨b, bs⟩
    · have hcontent := Source.content_of_read_error hread
      cases he : e.isInterrupted with
      | true =>
        rw [if_pos he] at hcontent
        rw [Client.hear_of_interrupted he] at hgo
        exact .inr (.inl ⟨rest, hcontent, Source.size_lt_of_read_error hread, hgo⟩)
      | false =>
        rw [he, if_neg Bool.false_ne_true] at hcontent
        rw [Client.hear_of_error hopen he] at hgo
        exact .inr (.inr ⟨_, rest, hcontent, .failed he, hgo⟩)
    · rw [Client.hear_of_end hopen] at hgo
      exact .inr (.inr ⟨_, rest, Source.content_of_read_end (by decide) hread, .ended, hgo⟩)
    · exact .inl ⟨b, bs, rest, Source.content_of_read_ok hread, Source.size_read_add_length_le hread, hgo⟩

/-- With `all` before it, a client that waits as `c` does takes the first line that comes, or loses its server. -/
def TakesLine (c : Client φ τ κ δ) (all : Bytes) (x : Dialogue φ τ κ δ) : Prop :=
  (∃ line after pending left, cutAtNewline? all = some (line, after) ∧ pending ++ left.content = after ∧
      x.GoesTo ⟨({ c with pending }).takeLine (Text.trimLineEnd (Utf8.decodeLossy line)), left⟩) ∨
    cutAtNewline? all = none ∧ ∃ failure pending left, failure.IsLoss ∧
      x.GoesTo ⟨{ c with pending }.finish (.error failure), left⟩

theorem TakesLine.head {c : Client φ τ κ δ} {all : Bytes} {x : Dialogue φ τ κ δ} (h : TakesLine c all x.go) :
    TakesLine c all x := by
  obtain ⟨line, after, pending, left, hcut, hleft, hgo⟩ | ⟨hcut, failure, pending, left, hloss, hgo⟩ := h
  · exact .inl ⟨line, after, pending, left, hcut, hleft, hgo.head⟩
  · exact .inr ⟨hcut, failure, pending, left, hloss, hgo.head⟩

theorem takesLine {c : Client φ τ κ δ} (h : Client.AwaitsLine c.phase) (src : Source) :
    TakesLine c (c.pending ++ src.content) ⟨c, src⟩ := by
  have hadvance := Client.advance?_of_awaitsLine h
  have hopen : c.isFinished = false := by
    generalize hp : c.phase = phase at h
    cases h <;> simp [Client.isFinished, hp]
  cases hcut : cutAtNewline? c.pending with
  | some parts =>
    obtain ⟨line, after⟩ := parts
    refine .inl ⟨line, after ++ src.content, after, src, cutAtNewline?_append hcut _, rfl, ?_⟩
    apply GoesTo.step
    rw [hadvance, takeLine?, hcut]
    rfl
  | none =>
    have hwaits : c.advance? = none := by
      rw [hadvance, takeLine?, hcut]
      rfl
    apply TakesLine.head
    rcases go_of_read hwaits hopen src with
      ⟨b, bs, rest, hcontent, hsize, hgo⟩ | ⟨rest, hcontent, hsize, hgo⟩ | ⟨failure, rest, hcontent, hloss, hgo⟩
    · rw [hgo, hcontent, ← List.append_assoc]
      exact takesLine (c := { c with pending := c.pending ++ b :: bs }) h rest
    · rw [hgo, hcontent]
      exact takesLine h rest
    · rw [hgo, hcontent, List.append_nil]
      exact .inr ⟨hcut, failure, c.pending, rest, hloss, .refl _⟩
termination_by src.size
decreasing_by
  · simp only [List.length_cons] at hsize
    omega
  · exact hsize

/-! ## A whole run -/

theorem goesTo_drain (c : Client φ τ κ δ) (src : Source) :
    (⟨c, src⟩ : Dialogue φ τ κ δ).GoesTo ⟨c.drain, src⟩ := by
  fun_induction Client.drain c with
  | case1 c h => exact .refl _
  | case2 c c' h ih => exact (GoesTo.step h src).trans ih

/-- A read of a waiting client, and all that the client does with what it brought. -/
theorem goesTo_receive {c : Client φ τ κ δ} (h : c.advance? = none) (hopen : c.isFinished = false)
    {src rest : Source} {result : ReadResult} (hread : src.read chunkSize = (result, rest)) :
    (⟨c, src⟩ : Dialogue φ τ κ δ).GoesTo ⟨c.receive result, rest⟩ := by
  apply GoesTo.head
  rw [go_of_waits h hopen hread]
  match result with
  | .ok (b :: bs) =>
    have hreceive : c.receive (.ok (b :: bs)) =
        ({ c with pending := c.pending ++ b :: bs } : Client φ τ κ δ).drain := by
      simp only [Client.receive, hopen, Bool.false_eq_true, if_false]
    rw [hreceive]
    exact goesTo_drain _ rest
  | .ok [] => exact .refl _
  | .error e => exact .refl _

/-- However a delivery is cut into reads, a client takes all of it or ends before. -/
theorem goesTo_deliver {c : Client φ τ κ δ} (h : c.advance? = none) (b : UInt8) (bs : Bytes) (rest : Source) :
    ∃ src, (⟨c, .bytes (b :: bs) :: rest⟩ : Dialogue φ τ κ δ).GoesTo ⟨c.deliver (b :: bs), src⟩ ∧
      ((c.deliver (b :: bs)).isFinished = true ∨ src = rest) := by
  generalize hcontent : b :: bs = content
  fun_induction Client.deliver c content generalizing b bs with
  | case1 c => cases hcontent
  | case2 c d ds ih =>
    cases hopen : c.isFinished with
    | true =>
      rw [Client.receive_of_isFinished hopen, Client.deliver_of_isFinished hopen]
      exact ⟨_, .refl _, .inl hopen⟩
    | false =>
      have htake : (d :: ds).take chunkSize = d :: ds.take (chunkSize - 1) := rfl
      have hdrop : (d :: ds).drop chunkSize = ds.drop (chunkSize - 1) := rfl
      have hread : Source.read chunkSize (.bytes (d :: ds) :: rest) = (.ok (d :: ds.take (chunkSize - 1)),
          if ds.drop (chunkSize - 1) = [] then rest else .bytes (ds.drop (chunkSize - 1)) :: rest) := by
        rw [Source.read, htake, hdrop]
      have hgo := goesTo_receive h hopen hread
      cases hleft : ds.drop (chunkSize - 1) with
      | nil =>
        rw [hleft, if_pos rfl] at hgo
        rw [Client.deliver]
        exact ⟨rest, hgo, .inr rfl⟩
      | cons e es =>
        rw [hleft, if_neg (List.cons_ne_nil e es)] at hgo
        obtain ⟨src, hnext, hend⟩ := ih (Client.advance?_receive h _) e es hleft.symm
        rw [hleft] at hnext hend
        exact ⟨src, hgo.trans hnext, hend⟩

theorem exists_goesTo_run {c : Client φ τ κ δ} (h : c.advance? = none) (src : Source) :
    ∃ y, (⟨c, src⟩ : Dialogue φ τ κ δ).GoesTo y ∧ y.client = c.run src := by
  induction src generalizing c with
  | nil =>
    cases hopen : c.isFinished with
    | true => exact ⟨_, .refl _, (Client.run_of_isFinished hopen []).symm⟩
    | false =>
      have hend : Source.read chunkSize [] = (.ok [], []) := rfl
      exact ⟨_, goesTo_receive h hopen hend, rfl⟩
  | cons arrival src ih =>
    cases hopen : c.isFinished with
    | true => exact ⟨_, .refl _, (Client.run_of_isFinished hopen (arrival :: src)).symm⟩
    | false =>
      obtain ⟨y, hgo, hrun⟩ := ih (Client.advance?_take h arrival)
      rcases arrival with (_ | ⟨b, bs⟩) | e
      · -- a read passes over a delivery without bytes
        have hsame : (⟨c, .bytes [] :: src⟩ : Dialogue φ τ κ δ).go = (⟨c, src⟩ : Dialogue φ τ κ δ).go := by
          rw [go_of_waits h hopen (by rw [Source.read]), go_of_waits h hopen rfl]
        have hskip : c.take (.bytes []) = c := by
          rw [Client.take, Client.deliver]
        rw [hskip] at hgo
        obtain ⟨n, rfl⟩ := hgo
        cases n with
        | zero =>
          rw [hskip] at hrun
          exact ⟨_, .refl _, hrun.trans (congrArg (Client.run · src) hskip.symm)⟩
        | succ n =>
          refine ⟨_, ⟨n + 1, rfl⟩, ?_⟩
          rw [Function.iterate_succ_apply, hsame]
          exact hrun
      · obtain ⟨left, hdeliver, hclosed | rfl⟩ := goesTo_deliver h b bs src
        · exact ⟨_, hdeliver, (Client.run_of_isFinished hclosed src).symm⟩
        · exact ⟨y, hdeliver.trans hgo, hrun⟩
      · have hfails : Source.read chunkSize (.failure e :: src) = (.error e, src) := rfl
        exact ⟨y, (goesTo_receive h hopen hfails).trans hgo, hrun⟩

end Dialogue

end FileFerry
