import FileFerry.Gateway.Recorded
import FileFerry.Proofs.Reception
import FileFerry.Proofs.Session.Reading

/-!
# What is done to an uploaded file, in order

A journal is kept of every call on a gateway and of every write, flush and close of a file. What is
written of an upload is a run of writes that went well, whole or cut short by one that did not
(`Writes`); after the first failure nothing more is written or flushed.
-/

set_option autoImplicit false

namespace FileFerry

inductive Note (γ : Type) [Gateway γ] where
  | call (call : GatewayCall)
  | write (handle : Gateway.Handle γ) (content : Bytes) (result : Except IoError Nat)
  | flush (handle : Gateway.Handle γ) (result : Except IoError Unit)
  | close (handle : Gateway.Handle γ)

structure Journaled (γ : Type) [Gateway γ] where
  inner : γ
  notes : List (Note γ)

namespace Note

variable {γ : Type} [Gateway γ]

/-- The bytes that a write took. -/
def stored : Note γ → Bytes
  | write _ content (.ok n) => content.take n
  | _ => []

/-- A write to the file that took some bytes, or was interrupted and will be tried again. -/
def GoesOn (h : Gateway.Handle γ) : Note γ → Prop
  | write h' _ (.ok n) => h' = h ∧ 0 < n
  | write h' _ (.error e) => h' = h ∧ e.isInterrupted = true
  | _ => False

/-- A write to the file that failed, or took nothing. -/
def Fails (h : Gateway.Handle γ) (e : IoError) : Note γ → Prop
  | write h' _ (.ok n) => h' = h ∧ n = 0 ∧ e = .nothingWritten
  | write h' _ (.error e') => h' = h ∧ e' = e ∧ e.isInterrupted = false
  | _ => False

end Note

namespace Journaled

variable {γ : Type} [Gateway γ]

def note {α : Type} (g : Journaled γ) (note : Note γ) (outcome : α × γ) : α × Journaled γ :=
  (outcome.1, ⟨outcome.2, g.notes ++ [note]⟩)

instance : Gateway (Journaled γ) where
  Handle := Gateway.Handle γ
  home g := Gateway.home g.inner
  «exists» g p := g.note (.call (.exists p)) (Gateway.exists g.inner p)
  mkdir g p := g.note (.call (.mkdir p)) (Gateway.mkdir g.inner p)
  remove g p := g.note (.call (.remove p)) (Gateway.remove g.inner p)
  chdir g p := g.note (.call (.chdir p)) (Gateway.chdir g.inner p)
  list g p := g.note (.call (.list p)) (Gateway.list g.inner p)
  openFile g p := g.note (.call (.openFile p)) (Gateway.openFile g.inner p)
  create g p := g.note (.call (.create p)) (Gateway.create g.inner p)
  write g h b := g.note (.write h b (Gateway.write g.inner h b).1) (Gateway.write g.inner h b)
  flush g h := g.note (.flush h (Gateway.flush g.inner h).1) (Gateway.flush g.inner h)
  close g h := ⟨Gateway.close g.inner h, g.notes ++ [.close h]⟩
  patience g h := Gateway.patience g.inner h
  patience_lt g h b e he hi := Gateway.patience_lt g.inner h b e he hi

end Journaled

/-- The notes of writing `b` to a file, and the failure that cut it short. -/
inductive Writes {γ : Type} [Gateway γ] (h : Gateway.Handle γ) (b : Bytes) :
    List (Note γ) → Option IoError → Prop where
  | whole {notes : List (Note γ)} (hnotes : ∀ note ∈ notes, note.GoesOn h)
      (hstored : notes.flatMap Note.stored = b) : Writes h b notes none
  | cut {notes : List (Note γ)} {last : Note γ} {e : IoError} (hnotes : ∀ note ∈ notes, note.GoesOn h)
      (hlast : last.Fails h e) (hstored : notes.flatMap Note.stored <+: b) :
      Writes h b (notes ++ [last]) (some e)

namespace Writes

variable {γ : Type} [Gateway γ] {h : Gateway.Handle γ} {b : Bytes}

theorem nil : Writes h ([] : Bytes) ([] : List (Note γ)) none :=
  .whole (fun _ hmem => nomatch hmem) rfl

theorem fail {last : Note γ} {e : IoError} (hlast : last.Fails h e) (b : Bytes) :
    Writes h b [last] (some e) := by
  rw [← List.nil_append [last]]
  exact .cut (fun _ hmem => nomatch hmem) hlast List.nil_prefix

theorem append {a : Bytes} {notes more : List (Note γ)} {failure : Option IoError}
    (hnotes : Writes h a notes none) (hmore : Writes h b more failure) :
    Writes h (a ++ b) (notes ++ more) failure := by
  obtain ⟨hgood, rfl⟩ := hnotes
  cases hmore with
  | whole hgood' hstored =>
    refine .whole ?_ ?_
    · intro note hmem
      exact (List.mem_append.mp hmem).elim (hgood note) (hgood' note)
    · rw [List.flatMap_append, hstored]
  | cut hgood' hlast hstored =>
    rw [← List.append_assoc]
    refine .cut ?_ hlast ?_
    · intro note hmem
      exact (List.mem_append.mp hmem).elim (hgood note) (hgood' note)
    · rw [List.flatMap_append]
      exact (List.prefix_append_right_inj _).mpr hstored

theorem cons {note : Note γ} {notes : List (Note γ)} {failure : Option IoError} (hnote : note.GoesOn h)
    (hnotes : Writes h b notes failure) : Writes h (note.stored ++ b) (note :: notes) failure := by
  have hone : Writes h note.stored [note] none := by
    refine .whole ?_ (List.append_nil _)
    intro other hmem
    rwa [List.mem_singleton.mp hmem]
  exact hone.append hnotes

end Writes

namespace Sink

variable {γ : Type} [Gateway γ]

theorem notes_write {sink sink' : Sink (Journaled γ)} {b : Bytes} {result : Except IoError Nat}
    (h : Writer.write sink b = (result, sink')) :
    sink'.gateway.notes = sink.gateway.notes ++ [.write sink.handle b result] ∧
      sink'.handle = sink.handle := by
  obtain ⟨rfl, rfl⟩ := Prod.mk.inj h
  exact ⟨rfl, rfl⟩

/-- Writing a payload goes on after what goes on, and stops at what fails. -/
theorem writes_of_pours {sink sink' : Sink (Journaled γ)} {b : Bytes} {failure : Option IoError}
    (h : Pours (none, sink) b (failure, sink')) :
    sink'.handle = sink.handle ∧ ∃ notes, sink'.gateway.notes = sink.gateway.notes ++ notes ∧
      Writes (γ := γ) sink.handle b notes failure := by
  generalize hx : ((none, sink) : Option IoError × Sink (Journaled γ)) = x at h
  generalize hy : ((failure, sink') : Option IoError × Sink (Journaled γ)) = y at h
  induction h generalizing sink with
  | done x =>
    cases hx
    cases hy
    exact ⟨rfl, [], (List.append_nil _).symm, .nil⟩
  | failed => cases hx
  | @takes w w' y c rest n hne hwrite _ ih =>
    cases hx
    obtain ⟨hnotes, hhandle⟩ := notes_write hwrite
    obtain ⟨hhandle', more, hmore, hwrites⟩ := ih rfl hy
    rw [hhandle] at hwrites hhandle'
    have htook : Note.GoesOn (γ := γ) w.handle (.write w.handle c (.ok (n + 1))) := ⟨rfl, Nat.succ_pos n⟩
    have hall : Note.stored (.write (γ := γ) w.handle c (.ok (n + 1))) ++ (c.drop (n + 1) ++ rest) =
        c ++ rest := by
      rw [← List.append_assoc]
      exact congrArg (· ++ rest) (List.take_append_drop (n + 1) c)
    have hwrites' := hwrites.cons htook
    rw [hall] at hwrites'
    refine ⟨hhandle', _, ?_, hwrites'⟩
    rw [hmore, hnotes, List.append_assoc, List.singleton_append]
  | @again w w' y c rest e hne hwrite he _ ih =>
    cases hx
    obtain ⟨hnotes, hhandle⟩ := notes_write hwrite
    obtain ⟨hhandle', more, hmore, hwrites⟩ := ih rfl hy
    rw [hhandle] at hwrites hhandle'
    have hagain : Note.GoesOn (γ := γ) w.handle (.write w.handle c (.error e)) := ⟨rfl, he⟩
    refine ⟨hhandle', _ :: more, ?_, hwrites.cons hagain⟩
    rw [hmore, hnotes, List.append_assoc, List.singleton_append]
  | @refuses w w' c hne hwrite rest =>
    cases hx
    cases hy
    obtain ⟨hnotes, hhandle⟩ := notes_write hwrite
    have hfails : Note.Fails (γ := γ) w.handle .nothingWritten (.write w.handle c (.ok 0)) :=
      ⟨rfl, rfl, rfl⟩
    exact ⟨hhandle, _, hnotes, .fail hfails _⟩
  | @fails w w' c e hne hwrite he rest =>
    cases hx
    cases hy
    obtain ⟨hnotes, hhandle⟩ := notes_write hwrite
    have hfails : Note.Fails (γ := γ) w.handle e (.write w.handle c (.error e)) := ⟨rfl, rfl, he⟩
    exact ⟨hhandle, _, hnotes, .fail hfails _⟩

end Sink

variable {γ ω : Type} [Gateway γ]

namespace Upload

/-- Since the notes `before`, all that was done is to write `b` to the file, as far as that went well. -/
def Wrote (u : Upload (Journaled γ)) (g : Journaled γ) (before : List (Note γ)) (b : Bytes) : Prop :=
  ∃ notes, g.notes = before ++ notes ∧ Writes (γ := γ) u.handle b notes u.reception.failure

theorem wrote_of_pours {u : Upload (Journaled γ)} {g g' : Journaled γ} {b : Bytes}
    (h : Pours (none, (⟨g, u.handle⟩ : Sink (Journaled γ))) b (u.reception.failure, ⟨g', u.handle⟩)) :
    u.Wrote g' g.notes b :=
  (Sink.writes_of_pours h).2

/-- What is done to the file at the end of the payload `b`, and what the client is told. -/
inductive Ends (path : Path) (h : Gateway.Handle γ) (b : Bytes) : List (Note γ) → Response → Prop where
  | completed {writes : List (Note γ)} (hwrites : Writes h b writes none) :
      Ends path h b (writes ++ [.flush h (.ok ()), .close h])
        (.framed .success (text "File transfer completed."))
  | notFlushed {writes : List (Note γ)} {e : IoError} (hwrites : Writes h b writes none) :
      Ends path h b (writes ++ [.flush h (.error e), .close h, .call (.remove path)])
        (CommandError.io (text "Failed to write file") e).response
  | notWritten {writes : List (Note γ)} {e : IoError} (hwrites : Writes h b writes (some e)) :
      Ends path h b (writes ++ [.close h, .call (.remove path)])
        (CommandError.io (text "Failed to write file") e).response

theorem flush_of_failed {u : Upload γ} {e : IoError} (h : u.reception.failure = some e) (g : γ) :
    u.flush g = (some e, g) := by
  simp only [Upload.flush, Reception.attempt, h]

theorem flush_of_sound {u : Upload γ} (h : u.reception.failure = none) (g : γ) :
    u.flush g = (failureOf (Gateway.flush g u.handle).1, (Gateway.flush g u.handle).2) := by
  simp only [Upload.flush, h, attempt_none]
  rfl

end Upload

namespace Session

variable [Writer ω]

theorem endPayload_of_failed {s : Session γ ω} {u : Upload γ} {e : IoError} {g : γ}
    (h : u.flush s.gateway = (some e, g)) : s.endPayload u =
      ({ s with gateway := g, phase := .command }.discardUpload u).sendResponse
        (CommandError.io (text "Failed to write file") e).response := by
  simp only [endPayload, h]
  rfl

theorem endPayload_of_sound {s : Session γ ω} {u : Upload γ} {g : γ} (h : u.flush s.gateway = (none, g)) :
    s.endPayload u =
      ({ s with gateway := Gateway.close g u.handle, phase := .command }.unregister u.entry).sendResponse
        (.framed .success (text "File transfer completed.")) := by
  simp only [endPayload, h]
  rfl

end Session

/-- A file is flushed if nothing failed before, and it is closed and, after a failure, removed. -/
theorem Upload.Wrote.ends [Writer ω] {u : Upload (Journaled γ)} {s : Session (Journaled γ) ω}
    {before : List (Note γ)} {b : Bytes} (h : u.Wrote s.gateway before b) :
    ∃ notes response, Upload.Ends (γ := γ) u.path u.handle b notes response ∧
      (s.endPayload u).gateway.notes = before ++ notes ∧
      (s.endPayload u).output = (s.sendResponse response).output := by
  obtain ⟨writes, hnotes, hwrites⟩ := h
  cases hfailure : u.reception.failure with
  | some e =>
    rw [hfailure] at hwrites
    rw [Session.endPayload_of_failed (Upload.flush_of_failed hfailure s.gateway)]
    refine ⟨_, _, .notWritten hwrites, ?_, rfl⟩
    change s.gateway.notes ++ [.close u.handle] ++ [.call (.remove u.path)] = _
    rw [hnotes]
    simp
  | none =>
    rw [hfailure] at hwrites
    have hflush := Upload.flush_of_sound hfailure s.gateway
    cases hresult : (Gateway.flush s.gateway u.handle).1 with
    | ok =>
      rw [hresult] at hflush
      rw [Session.endPayload_of_sound hflush]
      refine ⟨_, _, .completed hwrites, ?_, rfl⟩
      change s.gateway.notes ++ [.flush u.handle (Gateway.flush s.gateway u.handle).1] ++ [.close u.handle] = _
      rw [hresult, hnotes]
      simp
    | error e =>
      rw [hresult] at hflush
      rw [Session.endPayload_of_failed hflush]
      refine ⟨_, _, .notFlushed hwrites, ?_, rfl⟩
      change s.gateway.notes ++ [.flush u.handle (Gateway.flush s.gateway u.handle).1] ++ [.close u.handle] ++
        [.call (.remove u.path)] = _
      rw [hresult, hnotes]
      simp

end FileFerry
