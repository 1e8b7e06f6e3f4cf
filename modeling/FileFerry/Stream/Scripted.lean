import FileFerry.Stream.Writer

/-! A writer that follows a script: which calls fail, how much one call takes, and after how many
bytes in all there is no room left. It keeps what was written. -/

set_option autoImplicit false

namespace FileFerry

/-- The end of a scripted writer's room. -/
structure RoomLimit where
  bytes : Nat
  /-- How a write fails then; without an error it takes nothing. -/
  failure : Option IoError
  /-- Whether the first such failure makes room without end. -/
  once : Bool

structure ScriptedWriter where
  stored : Array UInt8
  /-- The failures of the next writes, in order; `none` is a write that goes well. -/
  writeFailures : List (Option IoError)
  flushFailures : List (Option IoError)
  /-- The most bytes one write takes. -/
  most : Option Nat
  limit : Option RoomLimit

namespace ScriptedWriter

def accepting : ScriptedWriter := ⟨#[], [], [], none, none⟩

instance : Inhabited ScriptedWriter := ⟨accepting⟩

def store (w : ScriptedWriter) (b : Bytes) : Except IoError Nat × ScriptedWriter :=
  let roomy : Bytes := match w.limit with
    | some limit => b.take (limit.bytes - w.stored.size)
    | none => b
  let taken : Bytes := match w.most with
    | some n => roomy.take n
    | none => roomy
  (.ok taken.length, { w with stored := w.stored ++ taken })

/-- A write when there is no room. An interruption is reported only once, else no write would end. -/
def refuse (w : ScriptedWriter) (limit : RoomLimit) : Except IoError Nat × ScriptedWriter :=
  match limit.failure with
  | none => (.ok 0, { w with limit := if limit.once then none else some limit })
  | some e =>
    (.error e, { w with limit := if limit.once || e.isInterrupted then none else some limit })

def writeHere (w : ScriptedWriter) (b : Bytes) : Except IoError Nat × ScriptedWriter :=
  match w.limit with
  | some limit => if b ≠ [] ∧ limit.bytes ≤ w.stored.size then refuse w limit else store w b
  | none => store w b

def write (w : ScriptedWriter) (b : Bytes) : Except IoError Nat × ScriptedWriter :=
  match w.writeFailures with
  | some e :: rest => (.error e, { w with writeFailures := rest })
  | _ :: rest => writeHere { w with writeFailures := rest } b
  | [] => writeHere w b

def flush (w : ScriptedWriter) : Except IoError Unit × ScriptedWriter :=
  match w.flushFailures with
  | some e :: rest => (.error e, { w with flushFailures := rest })
  | _ :: rest => (.ok (), { w with flushFailures := rest })
  | [] => (.ok (), w)

def patience (w : ScriptedWriter) : Nat :=
  w.writeFailures.length + if w.limit.isSome then 1 else 0

theorem patience_writeHere_lt (w : ScriptedWriter) (b : Bytes) (e : IoError)
    (he : (writeHere w b).1 = .error e) (hi : e.isInterrupted = true) :
    patience (writeHere w b).2 < patience w := by
  unfold writeHere at *
  split at he
  · rename_i limit hl
    split at he
    · rename_i hc
      unfold refuse at he
      split at he
      · simp at he
      · rename_i e' hf
        obtain rfl : e' = e := by simpa using he
        simp [hl, hc, refuse, hf, hi, patience]
    · simp [store] at he
  · simp [store] at he

instance : Writer ScriptedWriter where
  write := write
  flush := flush
  patience := patience
  patience_lt w b e he hi := by
    unfold write at *
    split at he
    · rename_i e' rest hw
      simp [patience, hw]
    · rename_i rest hw
      have := patience_writeHere_lt _ b e he hi
      simp only [patience, hw, List.length_cons] at *
      omega
    · exact patience_writeHere_lt w b e he hi

def contents (w : ScriptedWriter) : Bytes := w.stored.toList

end ScriptedWriter

end FileFerry
