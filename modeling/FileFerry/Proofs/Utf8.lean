import FileFerry.Text.Utf8
import Mathlib.Data.List.Basic
import Mathlib.Tactic.Common

/-!
# Text to bytes and back

Lossy decoding undoes encoding, whatever the text. Neither direction makes a newline or a
carriage return that was not there, so a line of text is a line of bytes.
-/

set_option autoImplicit false

namespace FileFerry.Utf8

theorem toNat_ofNat_of_lt {n : Nat} (h : n < 256) : (UInt8.ofNat n).toNat = n := by
  simp [UInt8.toNat_ofNat', Nat.mod_eq_of_lt h]

/-! ## Leading bytes by their value -/

theorem lead?_one {b : UInt8} (h : b.toNat < 0x80) : lead? b = some ⟨b.toNat, 0, 0x80, 0xBF⟩ := by
  rw [lead?, if_pos (UInt8.lt_iff_toNat_lt.mpr h)]

theorem lead?_two {b : UInt8} (h : 0xC2 ≤ b.toNat) (h' : b.toNat < 0xE0) :
    lead? b = some ⟨b.toNat - 0xC0, 1, 0x80, 0xBF⟩ := by
  simp only [lead?, UInt8.lt_iff_toNat_lt]
  rw [if_neg, if_neg, if_pos] <;> simp <;> omega

theorem lead?_three {b : UInt8} (h : 0xE0 ≤ b.toNat) (h' : b.toNat < 0xF0) :
    lead? b = some ⟨b.toNat - 0xE0, 2, if b.toNat = 0xE0 then 0xA0 else 0x80,
      if b.toNat = 0xED then 0x9F else 0xBF⟩ := by
  simp only [lead?, UInt8.lt_iff_toNat_lt, ← UInt8.toNat_inj]
  rw [if_neg (by simp; omega), if_neg (by simp; omega), if_neg (by simp; omega)]
  by_cases h0 : b.toNat = 0xE0
  · simp [h0]
  by_cases hD : b.toNat = 0xED
  · simp [hD]
  · rw [if_neg (by simpa using h0), if_neg (by simpa using hD), if_pos (by simpa using h'),
      if_neg h0, if_neg hD]

theorem lead?_four {b : UInt8} (h : 0xF0 ≤ b.toNat) (h' : b.toNat < 0xF5) :
    lead? b = some ⟨b.toNat - 0xF0, 3, if b.toNat = 0xF0 then 0x90 else 0x80,
      if b.toNat = 0xF4 then 0x8F else 0xBF⟩ := by
  simp only [lead?, UInt8.lt_iff_toNat_lt, ← UInt8.toNat_inj]
  rw [if_neg (by simp; omega), if_neg (by simp; omega), if_neg (by simp; omega),
    if_neg (by simp; omega), if_neg (by simp; omega), if_neg (by simp; omega)]
  by_cases h0 : b.toNat = 0xF0
  · simp [h0]
  by_cases h4 : b.toNat = 0xF4
  · simp [h4]
  · rw [if_neg (by simpa using h0), if_pos (by simp; omega), if_neg h0, if_neg h4]

/-! ## Decoding what was encoded -/

/-- The following byte that holds the low six bits of `n`. -/
def tailByte (n : Nat) : UInt8 := UInt8.ofNat (0x80 + n % 64)

@[simp] theorem toNat_tailByte (n : Nat) : (tailByte n).toNat = 0x80 + n % 64 :=
  toNat_ofNat_of_lt (by omega)

theorem tailRun_cons {n : Nat} {lo hi b : UInt8} (hlo : lo.toNat ≤ b.toNat) (hhi : b.toNat ≤ hi.toNat)
    (rest : Bytes) : tailRun (n + 1) lo hi (b :: rest) = b :: tailRun n 0x80 0xBF rest := by
  simp [tailRun, UInt8.le_iff_toNat_le, hlo, hhi]

theorem tailRun_cons_tailByte (n k : Nat) (rest : Bytes) :
    tailRun (n + 1) 0x80 0xBF (tailByte k :: rest) = tailByte k :: tailRun n 0x80 0xBF rest := by
  apply tailRun_cons
  · simp
  · simp
    omega

@[simp] theorem tailRun_zero (lo hi : UInt8) (rest : Bytes) : tailRun 0 lo hi rest = [] := by
  rw [tailRun]

theorem unitAt_of_lead {b : UInt8} {lead : Lead} {tails rest : Bytes} (hb : lead? b = some lead)
    (ht : tailRun lead.tails lead.least lead.greatest (tails ++ rest) = tails)
    (hlen : tails.length = lead.tails) :
    unitAt b (tails ++ rest) =
      (some (Char.ofNat (tails.foldl (fun acc x => acc * 64 + (x.toNat - 0x80)) lead.bits)),
        tails.length) := by
  simp [unitAt, hb, ht, hlen]

theorem toNat_lt_or (c : Char) : c.toNat < 0xD800 ∨ (0xDFFF < c.toNat ∧ c.toNat < 0x110000) := c.valid

theorem unitAt_encodeChar (c : Char) (rest : Bytes) :
    ∃ b tails, encodeChar c = b :: tails ∧ unitAt b (tails ++ rest) = (some c, tails.length) := by
  have hvalid := toNat_lt_or c
  unfold encodeChar
  dsimp only
  split
  · rename_i h
    refine ⟨_, [], rfl, ?_⟩
    have hb := toNat_ofNat_of_lt (n := c.toNat) (by omega)
    rw [unitAt_of_lead (lead?_one (by omega)) (by simp) rfl]
    simp [hb]
  split
  · refine ⟨_, [tailByte c.toNat], rfl, ?_⟩
    have hb := toNat_ofNat_of_lt (n := 0xC0 + c.toNat / 64) (by omega)
    rw [unitAt_of_lead (lead?_two (by omega) (by omega)) _ rfl]
    · have hval : ((0xC0 + c.toNat / 64) % 256 - 0xC0) * 64 + c.toNat % 64 = c.toNat := by omega
      simp [hval]
    · simp [tailRun_cons_tailByte]
  split
  · refine ⟨_, [tailByte (c.toNat / 64), tailByte c.toNat], rfl, ?_⟩
    have hb := toNat_ofNat_of_lt (n := 0xE0 + c.toNat / 4096) (by omega)
    rw [unitAt_of_lead (lead?_three (by omega) (by omega)) _ rfl]
    · have hval : (((0xE0 + c.toNat / 4096) % 256 - 0xE0) * 64 + c.toNat / 64 % 64) * 64 +
          c.toNat % 64 = c.toNat := by omega
      simp [hval]
    · rw [hb]
      dsimp only [List.cons_append]
      rw [tailRun_cons, tailRun_cons_tailByte, tailRun_zero]
      -- no overlong form, and no surrogate
      · split
        · simp
          omega
        · simp
      · split <;> (simp; omega)
  · refine ⟨_, [tailByte (c.toNat / 4096), tailByte (c.toNat / 64), tailByte c.toNat], rfl, ?_⟩
    have hb := toNat_ofNat_of_lt (n := 0xF0 + c.toNat / 262144) (by omega)
    rw [unitAt_of_lead (lead?_four (by omega) (by omega)) _ rfl]
    · have hval : ((((0xF0 + c.toNat / 262144) % 256 - 0xF0) * 64 + c.toNat / 4096 % 64) * 64 +
          c.toNat / 64 % 64) * 64 + c.toNat % 64 = c.toNat := by omega
      simp [hval]
    · rw [hb]
      dsimp only [List.cons_append]
      rw [tailRun_cons, tailRun_cons_tailByte, tailRun_cons_tailByte, tailRun_zero]
      -- no overlong form, and nothing above the last character
      · split
        · simp
          omega
        · simp
      · split <;> (simp; omega)

theorem units_encodeChar (c : Char) (rest : Bytes) :
    units (encodeChar c ++ rest) = some c :: units rest := by
  obtain ⟨b, tails, hc, hunit⟩ := unitAt_encodeChar c rest
  rw [hc, List.cons_append, units, hunit]
  simp

theorem units_encode (t : Text) : units (encode t) = t.map some := by
  induction t with
  | nil => simp [units]
  | cons c t ih => rw [encode_cons, units_encodeChar, ih, List.map_cons]

@[simp] theorem decodeLossy_encode (t : Text) : decodeLossy (encode t) = t := by
  simp [decodeLossy, units_encode, Function.comp_def]

/-! ## Newlines and carriage returns -/

/-- An ASCII byte stands in the form of a character only if it is that character. -/
theorem mem_encodeChar_of_lt {c : Char} {b : UInt8} (hb : b.toNat < 0x80) (h : b ∈ encodeChar c) :
    encodeChar c = [b] ∧ c.toNat = b.toNat := by
  have hvalid := toNat_lt_or c
  unfold encodeChar at h ⊢
  dsimp only at h ⊢
  split at h
  · rename_i hlt
    rw [if_pos hlt]
    obtain rfl := List.mem_singleton.mp h
    exact ⟨rfl, (toNat_ofNat_of_lt (by omega)).symm⟩
  · rw [if_neg ‹_›]
    exfalso
    split at h
    · have h0 := toNat_ofNat_of_lt (n := 0xC0 + c.toNat / 64) (by omega)
      have h1 := toNat_tailByte c.toNat
      unfold tailByte at h1
      simp only [List.mem_cons, List.not_mem_nil, or_false] at h
      rcases h with rfl | rfl <;> omega
    split at h
    · have h0 := toNat_ofNat_of_lt (n := 0xE0 + c.toNat / 4096) (by omega)
      have h1 := toNat_tailByte (c.toNat / 64)
      have h2 := toNat_tailByte c.toNat
      unfold tailByte at h1 h2
      simp only [List.mem_cons, List.not_mem_nil, or_false] at h
      rcases h with rfl | rfl | rfl <;> omega
    · have h0 := toNat_ofNat_of_lt (n := 0xF0 + c.toNat / 262144) (by omega)
      have h1 := toNat_tailByte (c.toNat / 4096)
      have h2 := toNat_tailByte (c.toNat / 64)
      have h3 := toNat_tailByte c.toNat
      unfold tailByte at h1 h2 h3
      simp only [List.mem_cons, List.not_mem_nil, or_false] at h
      rcases h with rfl | rfl | rfl | rfl <;> omega

theorem mem_encode_of_lt {t : Text} {b : UInt8} (hb : b.toNat < 0x80) (h : b ∈ encode t) :
    ∃ c ∈ t, encodeChar c = [b] ∧ c.toNat = b.toNat := by
  obtain ⟨c, hc, hbc⟩ := List.mem_flatMap.mp h
  exact ⟨c, hc, mem_encodeChar_of_lt hb hbc⟩

theorem newline_not_mem_encode {t : Text} (h : '\n' ∉ t) : 10 ∉ encode t := by
  intro hm
  obtain ⟨c, hc, _, hval⟩ := mem_encode_of_lt (by decide) hm
  rw [Char.toNat_inj (c := c) (d := '\n') |>.mp hval] at hc
  exact h hc

/-- A text that does not end in a carriage return keeps its last byte as a line. -/
theorem getLast?_encode_ne {t : Text} (h : t.getLast? ≠ some '\r') : (encode t).getLast? ≠ some 13 := by
  intro hlast
  rcases t.eq_nil_or_concat with rfl | ⟨init, c, rfl⟩
  · simp at hlast
  obtain ⟨b, tails, hc, _⟩ := unitAt_encodeChar c []
  rw [List.concat_eq_append, encode_append, List.getLast?_append_of_ne_nil _ (by simp [hc])] at hlast
  have hmem : (13 : UInt8) ∈ encodeChar c := by
    simpa using List.mem_of_getLast? hlast
  have hcr : c = '\r' := Char.toNat_inj.mp (mem_encodeChar_of_lt (by decide) hmem).2
  simp [hcr] at h

/-! ## What decoding makes -/

theorem lead?_none {b : UInt8} (h : 0x80 ≤ b.toNat ∧ b.toNat < 0xC2 ∨ 0xF5 ≤ b.toNat) :
    lead? b = none := by
  simp only [lead?, UInt8.lt_iff_toNat_lt, ← UInt8.toNat_inj]
  rcases h with h | h
  · rw [if_neg (by simp; omega), if_pos (by simp; omega)]
  · rw [if_neg (by simp; omega), if_neg (by simp; omega), if_neg (by simp; omega),
      if_neg (by simp; omega), if_neg (by simp; omega), if_neg (by simp; omega),
      if_neg (by simp; omega), if_neg (by simp; omega), if_neg (by simp; omega)]

theorem tailRun_cons_bound {n : Nat} {lo hi x : UInt8} {bytes tails : Bytes}
    (h : tailRun n lo hi bytes = x :: tails) : lo.toNat ≤ x.toNat := by
  unfold tailRun at h
  split at h
  · cases h
  · cases h
  · split at h
    · rename_i hx
      obtain ⟨rfl, _⟩ := List.cons.inj h
      simp only [Bool.and_eq_true, decide_eq_true_eq, UInt8.le_iff_toNat_le] at hx
      exact hx.1
    · cases h

theorem value_ge_of_tails {b : UInt8} {lead : Lead} {bytes : Bytes} (hb : lead? b = some lead)
    (hlen : (tailRun lead.tails lead.least lead.greatest bytes).length = lead.tails)
    (h : 0x80 ≤ b.toNat) :
    0x80 ≤ (tailRun lead.tails lead.least lead.greatest bytes).foldl
      (fun acc x => acc * 64 + (x.toNat - 0x80)) lead.bits := by
  have hlt := b.toNat_lt
  by_cases h2 : b.toNat < 0xC2
  · rw [lead?_none (.inl ⟨h, h2⟩)] at hb
    cases hb
  by_cases h3 : b.toNat < 0xE0
  · rw [lead?_two (by omega) h3] at hb
    obtain rfl := Option.some.inj hb
    obtain ⟨x, hx⟩ := List.length_eq_one_iff.mp hlen
    simp only [hx, List.foldl_cons, List.foldl_nil]
    omega
  by_cases h4 : b.toNat < 0xF0
  · rw [lead?_three (by omega) h4] at hb
    obtain rfl := Option.some.inj hb
    obtain ⟨x, y, hxy⟩ := List.length_eq_two.mp hlen
    have hbound := tailRun_cons_bound hxy
    simp only [hxy, List.foldl_cons, List.foldl_nil]
    split at hbound <;> (simp at hbound; omega)
  by_cases h5 : b.toNat < 0xF5
  · rw [lead?_four (by omega) h5] at hb
    obtain rfl := Option.some.inj hb
    obtain ⟨x, y, z, hxyz⟩ := List.length_eq_three.mp hlen
    have hbound := tailRun_cons_bound hxyz
    simp only [hxyz, List.foldl_cons, List.foldl_nil]
    split at hbound <;> (simp at hbound; omega)
  · rw [lead?_none (.inr (by omega))] at hb
    cases hb

theorem eq_of_ofNat_eq_newline {n : Nat} (h : Char.ofNat n = '\n') : n = 10 := by
  have hval := congrArg Char.toNat h
  by_cases hvalid : n.isValidChar
  · rw [Char.ofNat, dif_pos hvalid] at hval
    exact hval
  · rw [Char.ofNat, dif_neg hvalid] at hval
    cases hval

theorem eq_newline_of_unitAt {b : UInt8} {rest : Bytes} (h : (unitAt b rest).1 = some '\n') :
    b = 10 := by
  unfold unitAt at h
  split at h
  · cases h
  · rename_i lead hb
    dsimp only at h
    split at h
    · rename_i hlen
      have hn := eq_of_ofNat_eq_newline (Option.some.inj h)
      by_cases hlt : b.toNat < 0x80
      · rw [lead?_one hlt] at hb
        obtain rfl := Option.some.inj hb
        exact UInt8.toNat_inj.mp (by simpa using hn)
      · have := value_ge_of_tails hb hlen (by omega)
        omega
    · cases h

theorem newline_mem_of_units {bytes : Bytes} (h : some '\n' ∈ units bytes) : 10 ∈ bytes := by
  fun_induction units bytes with
  | case1 => cases h
  | case2 b rest ih =>
    rcases List.mem_cons.mp h with h | h
    · simp [eq_newline_of_unitAt h.symm]
    · exact List.mem_cons_of_mem b (List.mem_of_mem_drop (ih h))

theorem newline_not_mem_decodeLossy {bytes : Bytes} (h : 10 ∉ bytes) : '\n' ∉ decodeLossy bytes := by
  intro hm
  obtain ⟨unit, hunit, heq⟩ := List.mem_map.mp hm
  cases unit with
  | none => simp [replacement] at heq
  | some c =>
    obtain rfl : c = '\n' := heq
    exact h (newline_mem_of_units hunit)

theorem newline_mem_dropLast_of_units {bytes : Bytes} (h : some '\n' ∈ (units bytes).dropLast) :
    10 ∈ bytes.dropLast := by
  fun_induction units bytes with
  | case1 => cases h
  | case2 b rest ih =>
    by_cases hrest : units (rest.drop (unitAt b rest).2) = []
    · rw [hrest] at h
      cases h
    have hne : rest ≠ [] := by
      rintro rfl
      simp [units] at hrest
    rw [List.dropLast_cons_of_ne_nil hrest] at h
    rw [List.dropLast_cons_of_ne_nil hne]
    rcases List.mem_cons.mp h with h | h
    · rw [eq_newline_of_unitAt h.symm]
      exact List.mem_cons_self
    · have hdrop : rest.drop (unitAt b rest).2 ≠ [] := by
        intro hnil
        simp [hnil, units] at hrest
      have hmem := List.mem_append_right (rest.take (unitAt b rest).2) (ih h)
      rw [← List.dropLast_append_of_ne_nil hdrop, List.take_append_drop] at hmem
      exact List.mem_cons_of_mem b hmem

theorem units_of_decode? {bytes : Bytes} {t : Text} (h : decode? bytes = some t) :
    units bytes = t.map some := by
  unfold decode? at h
  generalize units bytes = us at h ⊢
  induction us generalizing t with
  | nil =>
    cases h
    rfl
  | cons unit us ih =>
    rw [List.mapM_cons] at h
    cases unit with
    | none => cases h
    | some c =>
      cases hus : us.mapM id with
      | none =>
        rw [hus] at h
        cases h
      | some rest =>
        rw [hus] at h
        cases h
        rw [ih hus]
        rfl

theorem decode?_encode (t : Text) : decode? (encode t) = some t := by
  unfold decode?
  rw [units_encode]
  induction t with
  | nil => rfl
  | cons c t ih => rw [List.map_cons, List.mapM_cons, ih]; rfl

/-- A line that ends at its first newline is a text that does. -/
theorem newline_not_mem_dropLast_of_decode? {bytes : Bytes} {t : Text} (h : decode? bytes = some t)
    (hbytes : 10 ∉ bytes.dropLast) : '\n' ∉ t.dropLast := by
  intro hmem
  apply hbytes
  apply newline_mem_dropLast_of_units
  rw [units_of_decode? h, ← List.map_dropLast]
  exact List.mem_map_of_mem hmem

end FileFerry.Utf8
