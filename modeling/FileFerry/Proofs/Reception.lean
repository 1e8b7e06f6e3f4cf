import FileFerry.Proofs.MarkerSearch
import FileFerry.Proofs.Streams

/-!
# What is done to a sink with a payload

`Pours` follows the writes of a payload one by one, in whatever pieces it comes, up to its end or to
the first write that fails. It says nothing of chunks or of a scanner: these only choose the pieces.
-/

set_option autoImplicit false

namespace FileFerry

variable {σ : Type} [Writer σ]

/-- A payload is written to a sink, one write after another. A write takes some of the bytes that are next, is
interrupted and made again, or fails; behind a failure nothing is written any more. -/
inductive Pours : Option IoError × σ → Bytes → Option IoError × σ → Prop where
  | done (x : Option IoError × σ) : Pours x [] x
  | failed (e : IoError) (sink : σ) (b : Bytes) : Pours (some e, sink) b (some e, sink)
  | takes {sink sink' : σ} {y : Option IoError × σ} {b rest : Bytes} {n : Nat} (hne : b ≠ [])
      (hwrite : Writer.write sink b = (.ok (n + 1), sink'))
      (next : Pours (none, sink') (b.drop (n + 1) ++ rest) y) : Pours (none, sink) (b ++ rest) y
  | again {sink sink' : σ} {y : Option IoError × σ} {b rest : Bytes} {e : IoError} (hne : b ≠ [])
      (hwrite : Writer.write sink b = (.error e, sink')) (he : e.isInterrupted = true)
      (next : Pours (none, sink') (b ++ rest) y) : Pours (none, sink) (b ++ rest) y
  | refuses {sink sink' : σ} {b : Bytes} (hne : b ≠ []) (hwrite : Writer.write sink b = (.ok 0, sink'))
      (rest : Bytes) : Pours (none, sink) (b ++ rest) (some .nothingWritten, sink')
  | fails {sink sink' : σ} {b : Bytes} {e : IoError} (hne : b ≠ [])
      (hwrite : Writer.write sink b = (.error e, sink')) (he : e.isInterrupted = false) (rest : Bytes) :
      Pours (none, sink) (b ++ rest) (some e, sink')

namespace Pours

variable {x y z : Option IoError × σ} {a b : Bytes}

theorem eq_of_failed {e : IoError} {sink : σ} (h : Pours (some e, sink) b y) : y = (some e, sink) := by
  cases h <;> rfl

/-- Bytes that come later are written behind those before them, or not at all. -/
theorem trans (h : Pours x a y) (h' : Pours y b z) : Pours x (a ++ b) z := by
  induction h with
  | done x => exact h'
  | failed e sink a =>
    rw [h'.eq_of_failed]
    exact .failed e sink _
  | takes hne hwrite _ ih =>
    rw [List.append_assoc]
    refine .takes hne hwrite ?_
    rw [← List.append_assoc]
    exact ih h'
  | again hne hwrite he _ ih =>
    rw [List.append_assoc]
    refine .again hne hwrite he ?_
    rw [← List.append_assoc]
    exact ih h'
  | refuses hne hwrite rest =>
    rw [h'.eq_of_failed, List.append_assoc]
    exact .refuses hne hwrite _
  | fails hne hwrite he rest =>
    rw [h'.eq_of_failed, List.append_assoc]
    exact .fails hne hwrite he _

/-- What every single write keeps is kept. -/
theorem keeps {P : σ → Prop} (hwrite : ∀ w b, P w → P (Writer.write w b).2) (h : Pours x b y) (hx : P x.2) :
    P y.2 := by
  have hkept {w w' : σ} {b : Bytes} {result : Except IoError Nat} (h : Writer.write w b = (result, w'))
      (hw : P w) : P w' := by
    have := hwrite w b hw
    rwa [h] at this
  induction h with
  | done => exact hx
  | failed => exact hx
  | takes _ h _ ih => exact ih (hkept h hx)
  | again _ h _ _ ih => exact ih (hkept h hx)
  | refuses _ h => exact hkept h hx
  | fails _ h => exact hkept h hx

end Pours

/-- The failure that an operation came to, if it failed. -/
def failureOf : Except IoError Unit → Option IoError
  | .ok () => none
  | .error e => some e

theorem attempt_none {σ : Type} (sink : σ) (operation : σ → Except IoError Unit × σ) :
    Reception.attempt none sink operation = (failureOf (operation sink).1, (operation sink).2) := by
  unfold Reception.attempt
  cases hresult : operation sink with
  | mk result sink' => cases result <;> rfl

/-- To write all of a piece is to write it so. -/
theorem pours_writeAll (sink : σ) (b : Bytes) :
    Pours (none, sink) b (failureOf (Writer.writeAll sink b).1, (Writer.writeAll sink b).2) := by
  fun_induction Writer.writeAll sink b with
  | case1 sink => exact .done _
  | case2 sink c cs sink' hwrite =>
    rw [← List.append_nil (c :: cs)]
    exact .refuses (List.cons_ne_nil c cs) hwrite []
  | case3 sink c cs n sink' hwrite ih =>
    rw [← List.append_nil (c :: cs)]
    refine .takes (List.cons_ne_nil c cs) hwrite ?_
    rwa [List.append_nil]
  | case4 sink c cs e sink' hwrite he ih =>
    rw [← List.append_nil (c :: cs)]
    refine .again (List.cons_ne_nil c cs) hwrite he ?_
    rwa [List.append_nil]
  | case5 sink c cs e sink' hwrite he =>
    rw [← List.append_nil (c :: cs)]
    exact .fails (List.cons_ne_nil c cs) hwrite (Bool.eq_false_iff.mpr he) []

theorem pours_attempt (failure : Option IoError) (sink : σ) (b : Bytes) :
    Pours (failure, sink) b (Reception.attempt failure sink fun s => Writer.writeAll s b) := by
  cases failure with
  | none =>
    rw [attempt_none]
    exact pours_writeAll sink b
  | some e => exact .failed e sink b

/-- A sink that takes everything has the payload behind what it held. -/
theorem Writer.Accepts.pours {holds : σ → Bytes → Prop} (h : Accepts holds) {sink : σ} {a b : Bytes}
    {y : Option IoError × σ} (hpours : Pours (none, sink) b y) (hheld : holds sink a) :
    y.1 = none ∧ holds y.2 (a ++ b) := by
  generalize hx : ((none, sink) : Option IoError × σ) = x at hpours
  induction hpours generalizing sink a with
  | done x =>
    subst hx
    rw [List.append_nil]
    exact ⟨rfl, hheld⟩
  | failed => cases hx
  | @takes _ _ _ c rest n hne hwrite _ ih =>
    cases hx
    rcases h.of_write hheld hne hwrite with ⟨m, hok, htaken⟩ | ⟨e, herror, -⟩
    · cases hok
      obtain ⟨hfailure, hall⟩ := ih htaken rfl
      refine ⟨hfailure, ?_⟩
      rwa [List.append_assoc, ← List.append_assoc (c.take _), List.take_append_drop] at hall
    · cases herror
  | again hne hwrite _ _ ih =>
    cases hx
    rcases h.of_write hheld hne hwrite with ⟨m, hok, -⟩ | ⟨e, -, -, hsame⟩
    · cases hok
    · exact ih hsame rfl
  | refuses hne hwrite =>
    cases hx
    rcases h.of_write hheld hne hwrite with ⟨m, hok, -⟩ | ⟨e, herror, -⟩
    · cases hok
    · cases herror
  | fails hne hwrite he =>
    cases hx
    rcases h.of_write hheld hne hwrite with ⟨m, hok, -⟩ | ⟨e, herror, hagain, -⟩
    · cases hok
    · cases herror
      rw [he] at hagain
      cases hagain

namespace Reception

/-- The end of a payload: the sink is flushed, unless it failed before. -/
def flushed (x : Option IoError × σ) : Option IoError × σ := attempt x.1 x.2 Writer.flush

/-- A chunk without the marker: what cannot begin one is written. -/
theorem take_of_not_hasMarker {r : Reception} {chunk : Bytes} (h : ¬ HasMarker (r.scanner.held ++ chunk))
    (sink : σ) :
    ∃ released r' sink', r.take sink chunk = (none, r', sink') ∧
      released ++ r'.scanner.held = r.scanner.held ++ chunk ∧
      (released = [] ∨ holdBack ≤ r'.scanner.held.length) ∧
      r'.received = r.received + released.length ∧
      Pours (r.failure, sink) released (r'.failure, sink') := by
  obtain ⟨released, scanner, hfeed, hsplit, hlen⟩ := Scanner.feed_of_not_hasMarker h
  simp only [take, hfeed]
  exact ⟨released, _, _, rfl, hsplit, eq_nil_or_of_length_window hsplit hlen, rfl, pours_attempt _ _ _⟩

/-- The chunk with the marker: the rest of the payload is written, and the sink flushed. -/
theorem take_of_cut {r : Reception} {chunk payload trailing : Bytes}
    (h : cutAtMarker? (r.scanner.held ++ chunk) = some (payload, trailing)) (sink : σ) :
    ∃ x, Pours (r.failure, sink) payload x ∧
      r.take sink chunk =
        (some trailing, ⟨.empty, r.received + payload.length, (flushed x).1⟩, (flushed x).2) := by
  refine ⟨_, pours_attempt r.failure sink payload, ?_⟩
  simp only [take, Scanner.feed_of_cut h, flushed]

end Reception

end FileFerry
