import FileFerry.Text.Utf8

/-! The end marker of a raw transfer and the search for it in a stream that arrives in chunks. The
scanner holds back the bytes that may still begin a marker, always fewer than a marker has; this
bound is part of its type. -/

set_option autoImplicit false

namespace FileFerry

/-- What ends the raw bytes of a transfer. -/
def endMarker : Bytes := Utf8.encode (text "FILE_TRANSFER_END\n")

@[simp] theorem length_endMarker : endMarker.length = 18 := by decide

/-- Cuts a byte string at the first end marker: what precedes it and what follows it. -/
def cutAtMarker? : Bytes → Option (Bytes × Bytes)
  | [] => none
  | b :: rest =>
    if endMarker.isPrefixOf (b :: rest) then some ([], (b :: rest).drop endMarker.length)
    else (cutAtMarker? rest).map fun (before, after) => (b :: before, after)

/-- What a chunk adds to the payload. -/
inductive Scan where
  /-- No marker yet; these bytes belong to the payload. -/
  | pending (payload : Bytes)
  /-- The marker came: the last bytes of the payload, and those behind the marker. -/
  | complete (payload trailing : Bytes)
  deriving DecidableEq, Repr

/-- The most bytes that can begin a marker without being one. -/
def holdBack : Nat := endMarker.length - 1

structure Scanner where
  /-- Bytes seen that may begin a marker. -/
  held : Bytes
  length_held_lt : held.length < endMarker.length

namespace Scanner

def empty : Scanner := ⟨[], by simp⟩

instance : Inhabited Scanner := ⟨empty⟩

/-- Takes the next chunk of the stream. After a marker the scanner is empty again. -/
def feed (s : Scanner) (chunk : Bytes) : Scan × Scanner :=
  let seen := s.held ++ chunk
  match cutAtMarker? seen with
  | some (payload, trailing) => (.complete payload trailing, empty)
  | none =>
    let released := seen.length - holdBack
    (.pending (seen.take released), ⟨seen.drop released, by
      simp only [List.length_drop, released, holdBack, length_endMarker]; omega⟩)

end Scanner

theorem length_of_cutAtMarker? {b before after : Bytes} (h : cutAtMarker? b = some (before, after)) :
    b.length = before.length + endMarker.length + after.length := by
  induction b generalizing before with
  | nil => simp [cutAtMarker?] at h
  | cons c cs ih =>
    simp only [cutAtMarker?] at h
    split at h
    · rename_i hp
      have hle := (List.isPrefixOf_iff_prefix.mp hp).length_le
      obtain ⟨rfl, rfl⟩ : [] = before ∧ (c :: cs).drop endMarker.length = after := by
        simpa using h
      simp only [List.length_nil, List.length_drop]
      omega
    · obtain ⟨⟨p, q⟩, hpq, heq⟩ := Option.map_eq_some_iff.mp h
      obtain ⟨rfl, rfl⟩ : c :: p = before ∧ q = after := by simpa using heq
      have := ih hpq
      simp only [List.length_cons]
      omega

theorem Scanner.length_trailing_lt {s s' : Scanner} {chunk payload trailing : Bytes}
    (h : s.feed chunk = (.complete payload trailing, s')) : trailing.length < chunk.length := by
  have hs := s.length_held_lt
  simp only [feed] at h
  split at h
  · rename_i p t hc
    have hl := length_of_cutAtMarker? hc
    obtain ⟨⟨rfl, rfl⟩, rfl⟩ : (p = payload ∧ t = trailing) ∧ empty = s' := by simpa using h
    simp only [List.length_append] at hl
    omega
  · simp at h

end FileFerry
