import FileFerry.Proofs.Commands
import FileFerry.Proofs.Decimal
import FileFerry.Wire.Cancellation

/-!
# The number in a cancellation request

What a request is read as depends on nothing but its length and the digits from the offset on
(`ofRequest_eq`). A request that was written is read back, whatever follows it. `Means` says of any
payload what it is read as, from the bytes alone (`payloads_are_read_exactly`).
-/

set_option autoImplicit false

namespace FileFerry

namespace Text

theorem trim_of_digits {digits : Text} (h : ∀ c ∈ digits, Decimal.IsDigit c) : trim digits = digits := by
  apply trim_eq_self
  · intro c hc
    exact Decimal.isBlank_of_isDigit (h c (List.mem_of_mem_head? hc))
  · intro c hc
    exact Decimal.isBlank_of_isDigit (h c (List.mem_of_getLast? hc))

end Text

namespace CommandId

theorem isDigit_iff {b : UInt8} : isDigit b = true ↔ 48 ≤ b.toNat ∧ b.toNat ≤ 57 := by
  simp [isDigit, UInt8.le_iff_toNat_le]

/-- The digits of a request as characters. -/
def digitText (digits : Bytes) : Text := digits.map fun b => Char.ofNat b.toNat

/-- The digits where a number should begin. -/
def digitsIn (payload : Bytes) : Bytes := (payload.drop offset).takeWhile isDigit

theorem toNat_digit {b : UInt8} (h : isDigit b = true) : (Char.ofNat b.toNat).toNat = b.toNat := by
  have hb := isDigit_iff.mp h
  have hvalid : b.toNat.isValidChar := .inl (by omega)
  rw [Char.ofNat, dif_pos hvalid]
  rfl

theorem encodeChar_digit {c : Char} (h : Decimal.IsDigit c) : Utf8.encodeChar c = [UInt8.ofNat c.toNat] := by
  unfold Decimal.IsDigit at h
  exact if_pos (by omega)

theorem isDigit_of_mem_digitText {digits : Bytes} (h : ∀ b ∈ digits, isDigit b = true) :
    ∀ c ∈ digitText digits, Decimal.IsDigit c := by
  intro c hc
  obtain ⟨b, hb, rfl⟩ := List.mem_map.mp hc
  unfold Decimal.IsDigit
  rw [toNat_digit (h b hb)]
  exact isDigit_iff.mp (h b hb)

theorem encode_digitText {digits : Bytes} (h : ∀ b ∈ digits, isDigit b = true) :
    Utf8.encode (digitText digits) = digits := by
  induction digits with
  | nil => rfl
  | cons b digits ih =>
    have hrest := ih fun b' hb' => h b' (List.mem_cons_of_mem b hb')
    have hchar := isDigit_of_mem_digitText h _ List.mem_cons_self
    rw [digitText, List.map_cons, Utf8.encode_cons, encodeChar_digit hchar, toNat_digit (h b List.mem_cons_self),
      UInt8.ofNat_toNat]
    exact congrArg (b :: ·) hrest

/-- A digit is one byte. -/
theorem encode_digits {t : Text} (h : ∀ c ∈ t, Decimal.IsDigit c) :
    Utf8.encode t = t.map fun c => UInt8.ofNat c.toNat := by
  induction t with
  | nil => rfl
  | cons c t ih =>
    rw [Utf8.encode_cons, encodeChar_digit (h c List.mem_cons_self),
      ih fun d hd => h d (List.mem_cons_of_mem c hd)]
    rfl

theorem length_encode_digits {t : Text} (h : ∀ c ∈ t, Decimal.IsDigit c) : (Utf8.encode t).length = t.length := by
  rw [encode_digits h, List.length_map]

theorem digitText_encode {t : Text} (h : ∀ c ∈ t, Decimal.IsDigit c) : digitText (Utf8.encode t) = t := by
  rw [encode_digits h, digitText, List.map_map]
  conv => rhs; rw [← List.map_id t]
  apply List.map_congr_left
  intro c hc
  have hdigit := h c hc
  unfold Decimal.IsDigit at hdigit
  have hbyte : (UInt8.ofNat c.toNat).toNat = c.toNat := by
    rw [UInt8.toNat_ofNat', Nat.mod_eq_of_lt (by omega)]
  simp only [Function.comp_apply, hbyte, Char.ofNat_toNat, id_eq]

theorem isDigit_of_mem_encode {t : Text} (h : ∀ c ∈ t, Decimal.IsDigit c) :
    ∀ b ∈ Utf8.encode t, isDigit b = true := by
  intro b hb
  obtain ⟨c, hc, hbc⟩ := List.mem_flatMap.mp hb
  have hdigit := h c hc
  rw [encodeChar_digit hdigit] at hbc
  obtain rfl := List.mem_singleton.mp hbc
  unfold Decimal.IsDigit at hdigit
  rw [isDigit_iff, UInt8.toNat_ofNat', Nat.mod_eq_of_lt (by omega)]
  exact hdigit

/-- Whatever number the digits make, it is that number, or too large for a command. -/
theorem ofRequest_eq (payload : Bytes) : ofRequest payload =
    if payload.length < offset then .error (.tooShort payload.length)
    else if digitsIn payload = [] then .error .missingIdentifier
    else if Decimal.value (digitText (digitsIn payload)) ≤ Decimal.maxUnsigned then
      .ok ⟨UInt64.ofNat (Decimal.value (digitText (digitsIn payload)))⟩
    else .error (.invalidIdentifier .tooLarge) := by
  have hdigits : ∀ b ∈ digitsIn payload, isDigit b = true := fun b hb => List.mem_takeWhile_imp hb
  have htext := isDigit_of_mem_digitText hdigits
  have hdecode : Utf8.decodeLossy (digitsIn payload) = digitText (digitsIn payload) := by
    conv => lhs; rw [← encode_digitText hdigits]
    exact Utf8.decodeLossy_encode _
  unfold ofRequest
  split
  · rfl
  · rw [← digitsIn]
    split
    · rename_i hnone
      rw [if_pos hnone]
    · rename_i hsome
      have hne : digitText (digitsIn payload) ≠ [] := by simpa [digitText] using hsome
      rw [if_neg hsome, ofText, hdecode, Text.trim_of_digits htext, Decimal.readNat_eq _ htext hne]
      by_cases hrange : Decimal.value (digitText (digitsIn payload)) ≤ Decimal.maxUnsigned
      · rw [if_pos hrange, if_pos hrange]
      · rw [if_neg hrange, if_neg hrange]

theorem isDigit_toText (id : CommandId) : ∀ c ∈ id.toText, Decimal.IsDigit c := Decimal.isDigit_ofNat _

theorem request_eq (id : CommandId) :
    id.request = Utf8.encode requestStart ++ (Utf8.encode id.toText ++ [newline]) := by
  simp [request, Utf8.encodeChar, newline]

theorem digitsIn_request_append (id : CommandId) (extra : Bytes) :
    digitsIn (id.request ++ extra) = Utf8.encode id.toText := by
  have hstart : (Utf8.encode requestStart).length = offset := rfl
  have hend : isDigit newline = false := rfl
  rw [digitsIn, request_eq, List.append_assoc, ← hstart, List.drop_left, List.append_assoc,
    List.takeWhile_append_of_pos (isDigit_of_mem_encode id.isDigit_toText)]
  simp [hend]

/-- A request is read back, whatever follows it. -/
theorem ofRequest_request_append (id : CommandId) (extra : Bytes) :
    ofRequest (id.request ++ extra) = .ok id := by
  have hdigits : digitText (digitsIn (id.request ++ extra)) = id.toText := by
    rw [digitsIn_request_append]
    exact digitText_encode id.isDigit_toText
  have hvalue : Decimal.value (digitText (digitsIn (id.request ++ extra))) = id.value.toNat := by
    rw [hdigits]
    exact Decimal.value_ofNat _
  have hne : digitsIn (id.request ++ extra) ≠ [] := by
    intro hnone
    rw [hnone] at hdigits
    exact Decimal.ofNat_ne_nil _ hdigits.symm
  have hrange : id.value.toNat ≤ Decimal.maxUnsigned := by
    have hlt := id.value.toNat_lt
    unfold Decimal.maxUnsigned
    omega
  have hlength : ¬ (id.request ++ extra).length < offset := by
    have hstart : (Utf8.encode requestStart).length = offset := rfl
    rw [request_eq, List.append_assoc, List.length_append, hstart]
    omega
  rw [ofRequest_eq, if_neg hlength, if_neg hne, hvalue, if_pos hrange, UInt64.ofNat_toNat]

/-- No request is longer than the most that is read of one. -/
theorem length_request_le (id : CommandId) : id.request.length ≤ 31 := by
  have hstart : (Utf8.encode requestStart).length = 10 := rfl
  have htext : (Utf8.encode id.toText).length = id.toText.length := length_encode_digits id.isDigit_toText
  have hdigits : id.toText.length ≤ 20 := by
    have hlt := id.value.toNat_lt
    exact Decimal.length_ofNat_le (by decide) (Nat.lt_of_lt_of_le hlt (by decide))
  rw [request_eq, List.length_append, List.length_append, hstart, htext, List.length_singleton]
  omega

/-! ## What any payload is read as -/

/-- The number that digits write in decimal; zeros in front do not matter to it. -/
def number (digits : Bytes) : Nat := digits.foldl (fun acc b => acc * 10 + (b.toNat - 48)) 0

/-- Behind ten bytes of any kind the payload has these digits, and behind them no further one. -/
def HasDigits (payload digits : Bytes) : Prop :=
  ∃ start rest, payload = start ++ (digits ++ rest) ∧ start.length = 10 ∧
    (∀ b ∈ digits, 48 ≤ b.toNat ∧ b.toNat ≤ 57) ∧
    ∀ b, rest.head? = some b → ¬ (48 ≤ b.toNat ∧ b.toNat ≤ 57)

/-- What a payload is to be read as. -/
inductive Means (payload : Bytes) : Except CancellationError CommandId → Prop where
  | tooShort (h : payload.length < 10) : Means payload (.error (.tooShort payload.length))
  | missing (h : HasDigits payload []) : Means payload (.error .missingIdentifier)
  | excessive {digits : Bytes} (h : HasDigits payload digits) (hne : digits ≠ [])
      (hlarge : 2 ^ 64 ≤ number digits) : Means payload (.error (.invalidIdentifier .tooLarge))
  | id {digits : Bytes} {id : CommandId} (h : HasDigits payload digits) (hne : digits ≠ [])
      (hnumber : number digits = id.value.toNat) : Means payload (.ok id)

theorem value_digitText {digits : Bytes} (h : ∀ b ∈ digits, isDigit b = true) :
    Decimal.value (digitText digits) = number digits := by
  rw [Decimal.value, Decimal.valueFrom, digitText, List.foldl_map, number]
  apply List.foldl_ext
  intro acc b hb
  rw [toNat_digit (h b hb)]

/-- A payload of ten bytes or more has one run of digits at the offset, which may be empty. -/
theorem hasDigits_iff {payload digits : Bytes} :
    HasDigits payload digits ↔ offset ≤ payload.length ∧ digitsIn payload = digits := by
  constructor
  · rintro ⟨start, rest, rfl, hstart, hdigits, hrest⟩
    have hoffset : start.length = offset := hstart
    refine ⟨?_, ?_⟩
    · rw [List.length_append]
      omega
    · have hall : ∀ b ∈ digits, isDigit b = true := fun b hb => isDigit_iff.mpr (hdigits b hb)
      have hend : rest.takeWhile isDigit = [] := by
        cases rest with
        | nil => rfl
        | cons b rest =>
          apply List.takeWhile_cons_of_neg
          rw [isDigit_iff]
          exact hrest b rfl
      rw [digitsIn, ← hoffset, List.drop_left, List.takeWhile_append_of_pos hall, hend, List.append_nil]
  · rintro ⟨hlength, rfl⟩
    refine ⟨payload.take offset, (payload.drop offset).dropWhile isDigit, ?_, ?_, ?_, ?_⟩
    · rw [digitsIn, List.takeWhile_append_dropWhile, List.take_append_drop]
    · exact List.length_take_of_le hlength
    · intro b hb
      exact isDigit_iff.mp (List.mem_takeWhile_imp hb)
    · intro b hb
      have hnot := List.head?_dropWhile_not isDigit (payload.drop offset)
      rw [hb] at hnot
      rw [← isDigit_iff, hnot]
      decide

theorem ofRequest_of_hasDigits {payload digits : Bytes} (h : HasDigits payload digits) :
    ofRequest payload = if digits = [] then .error .missingIdentifier
      else if number digits ≤ Decimal.maxUnsigned then .ok ⟨UInt64.ofNat (number digits)⟩
      else .error (.invalidIdentifier .tooLarge) := by
  obtain ⟨hlength, rfl⟩ := hasDigits_iff.mp h
  have hdigits : ∀ b ∈ digitsIn payload, isDigit b = true := fun b hb => List.mem_takeWhile_imp hb
  rw [ofRequest_eq, if_neg (Nat.not_lt.mpr hlength), value_digitText hdigits]

theorem means_ofRequest (payload : Bytes) : Means payload (ofRequest payload) := by
  by_cases hshort : payload.length < offset
  · rw [ofRequest_eq, if_pos hshort]
    exact .tooShort hshort
  have h : HasDigits payload (digitsIn payload) := hasDigits_iff.mpr ⟨Nat.not_lt.mp hshort, rfl⟩
  rw [ofRequest_of_hasDigits h]
  generalize digitsIn payload = digits at h
  by_cases hne : digits = []
  · subst hne
    exact .missing h
  rw [if_neg hne]
  unfold Decimal.maxUnsigned
  by_cases hrange : number digits ≤ 18446744073709551615
  · rw [if_pos hrange]
    refine .id h hne ?_
    rw [UInt64.toNat_ofNat', Nat.mod_eq_of_lt (by omega)]
  · rw [if_neg hrange]
    exact .excessive h hne (by omega)

theorem ofRequest_of_means {payload : Bytes} {answer : Except CancellationError CommandId}
    (h : Means payload answer) : ofRequest payload = answer := by
  cases h with
  | tooShort h =>
    rw [ofRequest_eq]
    exact if_pos h
  | missing h => rw [ofRequest_of_hasDigits h, if_pos rfl]
  | excessive h hne hlarge =>
    rw [ofRequest_of_hasDigits h, if_neg hne, if_neg]
    unfold Decimal.maxUnsigned
    omega
  | @id digits id h hne hnumber =>
    have hlt := id.value.toNat_lt
    rw [ofRequest_of_hasDigits h, if_neg hne, hnumber, if_pos, UInt64.ofNat_toNat]
    unfold Decimal.maxUnsigned
    omega

/-- Requests are read back whatever follows them, every payload is read as what it means and as nothing
else, and neither what stands before the digits nor what stands behind them matters. -/
theorem payloads_are_read_exactly :
    (∀ (id : CommandId) (extra : Bytes), ofRequest (id.request ++ extra) = .ok id) ∧
      (∀ (payload : Bytes) (answer : Except CancellationError CommandId),
        ofRequest payload = answer ↔ Means payload answer) ∧
      ∀ (payload payload' digits : Bytes), HasDigits payload digits → HasDigits payload' digits →
        ofRequest payload = ofRequest payload' := by
  refine ⟨ofRequest_request_append, ?_, ?_⟩
  · intro payload answer
    constructor
    · rintro rfl
      exact means_ofRequest payload
    · exact ofRequest_of_means
  · intro payload payload' digits h h'
    rw [ofRequest_of_hasDigits h, ofRequest_of_hasDigits h']

end CommandId

end FileFerry
