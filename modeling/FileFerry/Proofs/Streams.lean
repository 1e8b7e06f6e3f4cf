import FileFerry.Gateway.Basic
import FileFerry.Stream.Scripted
import FileFerry.Wire.Reception
import FileFerry.Wire.Transmission

/-!
# Streams as a whole

The bytes that reading a source brings before it ends or fails, however they are cut, and what
a run of writes keeps and comes to, from what a single write does.
-/

set_option autoImplicit false

namespace FileFerry

/-- A failed read that is not tried again. -/
def Arrival.isHard : Arrival → Bool
  | .bytes _ => false
  | .failure e => !e.isInterrupted

namespace Source

/-- All that reading brings before the end or the first failure for good. -/
def content : Source → Bytes
  | [] => []
  | .bytes b :: rest => b ++ content rest
  | .failure e :: rest => if e.isInterrupted then content rest else []

theorem content_of_read_ok {n : Nat} {src rest : Source} {chunk : Bytes}
    (h : src.read n = (.ok chunk, rest)) : src.content = chunk ++ content rest := by
  fun_induction read n src with
  | case1 =>
    obtain ⟨hchunk, rfl⟩ := Prod.mk.inj h
    obtain rfl := Except.ok.inj hchunk
    rfl
  | case2 e src => simp at h
  | case3 src ih => rw [content, ih h, List.nil_append]
  | case4 b bs src left =>
    obtain ⟨hchunk, rfl⟩ := Prod.mk.inj h
    obtain rfl := Except.ok.inj hchunk
    rw [content]
    split
    · rename_i hleft
      conv => lhs; rw [← List.take_append_drop n (b :: bs)]
      rw [show (b :: bs).drop n = [] from hleft, List.append_nil]
    · rw [content, ← List.append_assoc, List.take_append_drop]

theorem content_of_read_end {n : Nat} (hn : 0 < n) {src rest : Source}
    (h : src.read n = (.ok [], rest)) : src.content = [] := by
  fun_induction read n src with
  | case1 => rfl
  | case2 e src => simp at h
  | case3 src ih => rw [content, ih h, List.nil_append]
  | case4 b bs src left =>
    obtain ⟨m, rfl⟩ := Nat.exists_eq_succ_of_ne_zero (Nat.pos_iff_ne_zero.mp hn)
    simp at h

theorem content_of_read_error {n : Nat} {src rest : Source} {e : IoError}
    (h : src.read n = (.error e, rest)) : src.content = if e.isInterrupted then content rest else [] := by
  fun_induction read n src with
  | case1 => simp at h
  | case2 e' src =>
    obtain ⟨herror, rfl⟩ := Prod.mk.inj h
    obtain rfl := Except.error.inj herror
    rfl
  | case3 src ih => rw [content, ih h, List.nil_append]
  | case4 b bs src left => simp at h

theorem content_of_readAgain_ok {n : Nat} {src rest : Source} {chunk : Bytes}
    (h : src.readAgain n = (.ok chunk, rest)) : src.content = chunk ++ content rest := by
  fun_induction readAgain n src with
  | case1 =>
    obtain ⟨hchunk, rfl⟩ := Prod.mk.inj h
    obtain rfl := Except.ok.inj hchunk
    rfl
  | case2 e src he ih => rw [content, if_pos he, ih h]
  | case3 => simp at h
  | case4 src ih => rw [content, ih h, List.nil_append]
  | case5 b bs src => exact content_of_read_ok h

theorem content_of_readAgain_error {n : Nat} {src rest : Source} {e : IoError}
    (h : src.readAgain n = (.error e, rest)) : src.content = [] := by
  fun_induction readAgain n src with
  | case1 => simp at h
  | case2 e' src he ih => rw [content, if_pos he, ih h]
  | case3 e' src he => rw [content, if_neg he]
  | case4 src ih => rw [content, ih h, List.nil_append]
  | case5 b bs src => simp [read] at h

/-- A read that is tried again fails only for good. -/
theorem isInterrupted_of_readAgain_error {n : Nat} {src rest : Source} {e : IoError}
    (h : src.readAgain n = (.error e, rest)) : e.isInterrupted = false := by
  fun_induction readAgain n src with
  | case1 => simp at h
  | case2 e' src he ih => exact ih h
  | case3 e' src he =>
    obtain ⟨herror, -⟩ := Prod.mk.inj h
    rw [← Except.error.inj herror]
    exact Bool.eq_false_iff.mpr he
  | case4 src ih => exact ih h
  | case5 b bs src => simp [read] at h

theorem content_of_readAgain_end {n : Nat} (hn : 0 < n) {src rest : Source}
    (h : src.readAgain n = (.ok [], rest)) : src.content = [] := by
  fun_induction readAgain n src with
  | case1 => rfl
  | case2 e src he ih => rw [content, if_pos he, ih h]
  | case3 => simp at h
  | case4 src ih => rw [content, ih h, List.nil_append]
  | case5 b bs src => exact content_of_read_end hn h

/-- The end of a stream is behind everything. -/
theorem rest_of_readAgain_end {n : Nat} (hn : 0 < n) {src rest : Source}
    (h : src.readAgain n = (.ok [], rest)) : rest = [] := by
  fun_induction readAgain n src with
  | case1 => exact (Prod.mk.inj h).2.symm
  | case2 e src he ih => exact ih h
  | case3 => simp at h
  | case4 src ih => exact ih h
  | case5 b bs src =>
    obtain ⟨m, rfl⟩ := Nat.exists_eq_add_one.mpr hn
    simp [read] at h

/-- The first failure for good. -/
def failure? : Source → Option IoError
  | [] => none
  | .bytes _ :: rest => failure? rest
  | .failure e :: rest => if e.isInterrupted then failure? rest else some e

theorem failure?_of_readAgain_ok {n : Nat} {src rest : Source} {chunk : Bytes}
    (h : src.readAgain n = (.ok chunk, rest)) : failure? rest = src.failure? := by
  fun_induction readAgain n src with
  | case1 =>
    obtain ⟨-, rfl⟩ := Prod.mk.inj h
    rfl
  | case2 e src he ih => rw [ih h, failure?, if_pos he]
  | case3 => simp at h
  | case4 src ih => exact ih h
  | case5 b bs src =>
    obtain ⟨-, rfl⟩ := Prod.mk.inj h
    split <;> rfl

theorem failure?_of_readAgain_error {n : Nat} {src rest : Source} {e : IoError}
    (h : src.readAgain n = (.error e, rest)) : src.failure? = some e := by
  fun_induction readAgain n src with
  | case1 => simp at h
  | case2 e' src he ih => rw [failure?, if_pos he, ih h]
  | case3 e' src he =>
    obtain ⟨herror, -⟩ := Prod.mk.inj h
    rw [failure?, if_neg he, Except.error.inj herror]
  | case4 src ih => exact ih h
  | case5 b bs src => simp [read] at h

theorem failure?_of_readAgain_end {n : Nat} (hn : 0 < n) {src rest : Source}
    (h : src.readAgain n = (.ok [], rest)) : src.failure? = none := by
  fun_induction readAgain n src with
  | case1 => rfl
  | case2 e src he ih => rw [failure?, if_pos he, ih h]
  | case3 => simp at h
  | case4 src ih => exact ih h
  | case5 b bs src =>
    obtain ⟨m, rfl⟩ := Nat.exists_eq_add_one.mpr hn
    simp [read] at h

theorem length_le_of_readAgain {n : Nat} {src rest : Source} {chunk : Bytes}
    (h : src.readAgain n = (.ok chunk, rest)) : chunk.length ≤ n := by
  fun_induction readAgain n src with
  | case1 =>
    obtain ⟨hchunk, -⟩ := Prod.mk.inj h
    rw [← Except.ok.inj hchunk]
    exact Nat.zero_le n
  | case2 e src he ih => exact ih h
  | case3 => simp at h
  | case4 src ih => exact ih h
  | case5 b bs src =>
    obtain ⟨hchunk, -⟩ := Prod.mk.inj h
    rw [← Except.ok.inj hchunk]
    exact List.length_take_le n _

end Source

namespace Writer

variable {ω : Type} [Writer ω]

/-- What every single write keeps is kept until everything is written. -/
theorem writeAll_keeps {P : ω → Prop} (hwrite : ∀ w b, P w → P (write w b).2) {w : ω} (h : P w)
    (b : Bytes) : P (writeAll w b).2 := by
  fun_induction writeAll w b with
  | case1 w => exact h
  | case2 w c cs w' hw =>
    have := hwrite w (c :: cs) h
    rwa [hw] at this
  | case3 w c cs n w' hw ih =>
    apply ih
    have := hwrite w (c :: cs) h
    rwa [hw] at this
  | case4 w c cs e w' hw he ih =>
    apply ih
    have := hwrite w (c :: cs) h
    rwa [hw] at this
  | case5 w c cs e w' hw he =>
    have := hwrite w (c :: cs) h
    rwa [hw] at this

theorem writeAll_of_ok {w : ω} {b : Bytes} {n : Nat} (hb : b ≠ []) (h : (write w b).1 = .ok (n + 1)) :
    writeAll w b = writeAll (write w b).2 (b.drop (n + 1)) := by
  obtain ⟨c, cs, rfl⟩ := List.exists_cons_of_ne_nil hb
  rw [writeAll]
  split
  all_goals
    rename_i hwrite
    rw [hwrite] at h ⊢
    cases h
  rfl

theorem writeAll_of_error {w : ω} {b : Bytes} {e : IoError} (hb : b ≠ []) (h : (write w b).1 = .error e)
    (he : e.isInterrupted = false) : writeAll w b = (.error e, (write w b).2) := by
  obtain ⟨c, cs, rfl⟩ := List.exists_cons_of_ne_nil hb
  rw [writeAll]
  split
  all_goals
    rename_i hwrite
    rw [hwrite] at h ⊢
    cases h
  rw [if_neg (by simp [he])]

/-- A writer that takes everything, in short or interrupted writes maybe; `holds w b` says that `b` was
written to `w` in all. -/
structure Accepts (holds : ω → Bytes → Prop) : Prop where
  write : ∀ {w : ω} {b c : Bytes}, holds w b → c ≠ [] →
    (∃ n w', Writer.write w c = (.ok (n + 1), w') ∧ holds w' (b ++ c.take (n + 1))) ∨
      ∃ e w', Writer.write w c = (.error e, w') ∧ e.isInterrupted = true ∧ holds w' b
  flush : ∀ {w : ω} {b : Bytes}, holds w b → ∃ w', Writer.flush w = (.ok (), w') ∧ holds w' b

theorem Accepts.of_write {holds : ω → Bytes → Prop} (h : Accepts holds) {w w' : ω} {b c : Bytes}
    {result : Except IoError Nat} (hw : holds w b) (hc : c ≠ []) (hwrite : Writer.write w c = (result, w')) :
    (∃ n, result = .ok (n + 1) ∧ holds w' (b ++ c.take (n + 1))) ∨
      ∃ e, result = .error e ∧ e.isInterrupted = true ∧ holds w' b := by
  rcases h.write hw hc with ⟨n, v, hv, hheld⟩ | ⟨e, v, hv, hagain, hheld⟩
  · rw [hwrite] at hv
    obtain ⟨rfl, rfl⟩ := Prod.mk.inj hv
    exact .inl ⟨n, rfl, hheld⟩
  · rw [hwrite] at hv
    obtain ⟨rfl, rfl⟩ := Prod.mk.inj hv
    exact .inr ⟨e, rfl, hagain, hheld⟩

theorem Accepts.writeAll {holds : ω → Bytes → Prop} (h : Accepts holds) {w : ω} {b : Bytes}
    (hw : holds w b) (c : Bytes) : ∃ w', writeAll w c = (.ok (), w') ∧ holds w' (b ++ c) := by
  fun_induction Writer.writeAll w c generalizing b with
  | case1 w => exact ⟨w, rfl, by simpa using hw⟩
  | case2 w c cs w' hwrite =>
    rcases h.of_write hw (List.cons_ne_nil c cs) hwrite with ⟨n, hok, -⟩ | ⟨e, herror, -⟩
    · cases hok
    · cases herror
  | case3 w c cs n w' hwrite ih =>
    rcases h.of_write hw (List.cons_ne_nil c cs) hwrite with ⟨m, hok, hheld⟩ | ⟨e, herror, -⟩
    · cases hok
      obtain ⟨v, hv, hheld⟩ := ih hheld
      refine ⟨v, hv, ?_⟩
      simpa using hheld
    · cases herror
  | case4 w c cs e w' hwrite he ih =>
    rcases h.of_write hw (List.cons_ne_nil c cs) hwrite with ⟨m, hok, -⟩ | ⟨e', herror, -, hheld⟩
    · cases hok
    · exact ih hheld
  | case5 w c cs e w' hwrite he =>
    rcases h.of_write hw (List.cons_ne_nil c cs) hwrite with ⟨m, hok, -⟩ | ⟨e', herror, hagain, -⟩
    · cases hok
    · cases herror
      exact absurd hagain he

theorem Accepts.send {holds : ω → Bytes → Prop} (h : Accepts holds) {w : ω} {b : Bytes}
    (hw : holds w b) (c : Bytes) : ∃ w', send w c = (.ok (), w') ∧ holds w' (b ++ c) := by
  obtain ⟨v, hv, hheld⟩ := h.writeAll hw c
  obtain ⟨v', hv', hheld'⟩ := h.flush hheld
  exact ⟨v', by simp only [Writer.send, hv, hv'], hheld'⟩

theorem Accepts.holds_send {holds : ω → Bytes → Prop} (h : Accepts holds) {w : ω} {b : Bytes}
    (hw : holds w b) (c : Bytes) : holds (Writer.send w c).2 (b ++ c) := by
  obtain ⟨w', hsend, hheld⟩ := h.send hw c
  rwa [hsend]

end Writer

namespace ScriptedWriter

/-- A writer without a script for failures or short writes, and what was written to it. -/
structure Holds (w : ScriptedWriter) (b : Bytes) : Prop where
  writes : w.writeFailures = []
  flushes : w.flushFailures = []
  most : w.most = none
  limit : w.limit = none
  contents : w.contents = b

theorem accepts_holds : Writer.Accepts Holds := by
  constructor
  · rintro ⟨stored, _, _, _, _⟩ b c ⟨rfl, rfl, rfl, rfl, rfl⟩ hc
    obtain ⟨x, xs, rfl⟩ := List.exists_cons_of_ne_nil hc
    refine .inl ⟨xs.length, ⟨stored ++ x :: xs, [], [], none, none⟩, rfl, rfl, rfl, rfl, rfl, ?_⟩
    rw [← List.length_cons (a := x), List.take_length]
    simp [contents]
  · rintro ⟨stored, _, _, _, _⟩ b ⟨rfl, rfl, rfl, rfl, rfl⟩
    exact ⟨_, rfl, rfl, rfl, rfl, rfl, rfl⟩

end ScriptedWriter

namespace Sending

variable {ω : Type} [Writer ω]

/-- To a writer that takes everything a step sends what it read, or the marker; it does not fail. -/
theorem step_accepts {holds : ω → Bytes → Prop} (h : Writer.Accepts holds) (s : Sending) {w : ω}
    {b : Bytes} (hw : holds w b) :
    (∃ outcome w', s.step w = (.ended outcome, w') ∧ s.source.content = [] ∧ holds w' (b ++ endMarker) ∧
      ∀ e, outcome ≠ .outputFailed e) ∨
      ∃ chunk rest w', s.step w = (.more rest, w') ∧
        s.source.content = chunk ++ rest.source.content ∧ holds w' (b ++ chunk) := by
  obtain ⟨marked, hmarked, hheld⟩ := h.send hw endMarker
  unfold step
  split
  · rename_i hr
    refine .inl ⟨.sent s.count, marked, by simp only [finish, hmarked], ?_, hheld, by simp⟩
    exact Source.content_of_readAgain_end (by decide) hr
  · rename_i e rest hr
    refine .inl ⟨.sourceFailed e, marked, by simp only [finish, hmarked], ?_, hheld, by simp⟩
    exact Source.content_of_readAgain_error hr
  · rename_i c cs rest hr
    obtain ⟨w', hw', hheld'⟩ := h.send hw (c :: cs)
    refine .inr ⟨c :: cs, ⟨rest, s.count + (c :: cs).length⟩, w', by simp only [hw'], ?_, hheld'⟩
    exact Source.content_of_readAgain_ok hr

theorem run_of_more {s rest : Sending} {w w' : ω} (h : s.step w = (.more rest, w')) :
    s.run w = rest.run w' := by
  rw [run]
  split
  · rename_i h'
    rw [h] at h'
    cases h'
  · rename_i h'
    rw [h] at h'
    cases h'
    rfl

theorem run_of_ended {s : Sending} {outcome : Transmission} {w w' : ω}
    (h : s.step w = (.ended outcome, w')) : s.run w = (outcome, w') := by
  rw [run]
  split
  · rename_i h'
    rw [h] at h'
    cases h'
    rfl
  · rename_i h'
    rw [h] at h'
    cases h'

/-- However a file is read, its content is sent and then the marker. -/
theorem run_accepts {holds : ω → Bytes → Prop} (h : Writer.Accepts holds) (s : Sending) {w : ω}
    {b : Bytes} (hw : holds w b) : holds (s.run w).2 (b ++ (s.source.content ++ endMarker)) := by
  fun_induction run s w generalizing b with
  | case1 s w outcome w' hstep =>
    rcases s.step_accepts h hw with ⟨_, v, hv, hcontent, hheld, -⟩ | ⟨_, _, v, hv, _, _⟩
    · rw [hstep] at hv
      cases hv
      rwa [hcontent]
    · rw [hstep] at hv
      cases hv
  | case2 s w rest w' hstep ih =>
    rcases s.step_accepts h hw with ⟨_, v, hv, _, _⟩ | ⟨chunk, _, v, hv, hcontent, hheld⟩
    · rw [hstep] at hv
      cases hv
    · rw [hstep] at hv
      cases hv
      rw [hcontent]
      simpa using ih hheld

end Sending

namespace Sink

variable {γ : Type} [Gateway γ]

theorem gateway_write {s s' : Sink γ} {b : Bytes} {result : Except IoError Nat}
    (h : Writer.write s b = (result, s')) :
    Gateway.write s.gateway s.handle b = (result, s'.gateway) ∧ s'.handle = s.handle := by
  obtain ⟨hresult, rfl⟩ := Prod.mk.inj h
  exact ⟨Prod.ext hresult rfl, rfl⟩

theorem handle_writeAll (s : Sink γ) (b : Bytes) : (Writer.writeAll s b).2.handle = s.handle :=
  Writer.writeAll_keeps (P := fun t : Sink γ => t.handle = s.handle) (fun _ _ h => h) rfl b

theorem handle_attempt_writeAll (s : Sink γ) (failure : Option IoError) (b : Bytes) :
    (Reception.attempt failure s fun sink => Writer.writeAll sink b).2.handle = s.handle := by
  have h := handle_writeAll s b
  unfold Reception.attempt
  split
  · rfl
  · split
    all_goals
      rename_i hw
      dsimp only at hw
      rwa [hw] at h

theorem mk_attempt_writeAll (g : γ) (h : Gateway.Handle γ) (failure : Option IoError) (b : Bytes) :
    (⟨(Reception.attempt failure (⟨g, h⟩ : Sink γ) fun sink => Writer.writeAll sink b).2.gateway, h⟩ :
      Sink γ) = (Reception.attempt failure ⟨g, h⟩ fun sink => Writer.writeAll sink b).2 := by
  have heq := handle_attempt_writeAll ⟨g, h⟩ failure b
  generalize Reception.attempt failure (⟨g, h⟩ : Sink γ) (fun sink => Writer.writeAll sink b) = r at *
  obtain ⟨_, g', h'⟩ := r
  obtain rfl : h' = h := heq
  rfl

end Sink

end FileFerry
