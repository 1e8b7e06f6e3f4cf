import FileFerry.Proofs.Streams

/-!
# Gateways whose files take bytes one by one

A steady gateway does not care how what is written to a file was cut: a file takes its bytes one
after another, and whether it refuses the next one depends on those it took. A write may still
be short or interrupted. `Same` relates states that no call tells apart; it leaves room for
whatever a gateway remembers of single writes.
-/

set_option autoImplicit false

namespace FileFerry

/-- Stores bytes one by one, up to the first that is refused. -/
def storeBytes {γ η : Type} (fault : γ → η → Option IoError) (put : γ → η → UInt8 → γ) (h : η) :
    γ → Bytes → Option IoError × γ
  | g, [] => (none, g)
  | g, b :: bs =>
    match fault g h with
    | some e => (some e, g)
    | none => storeBytes fault put h (put g h b) bs

def Alike {γ α : Type} (Same : γ → γ → Prop) (x y : α × γ) : Prop := x.1 = y.1 ∧ Same x.2 y.2

class SteadyGateway (γ : Type) [Gateway γ] where
  Same : γ → γ → Prop
  same_equivalence : Equivalence Same
  /-- How an open file would refuse its next byte. -/
  fault : γ → Gateway.Handle γ → Option IoError
  /-- The state after an open file took a byte. -/
  put : γ → Gateway.Handle γ → UInt8 → γ
  fault_congr : ∀ {g g' : γ} (h : Gateway.Handle γ), Same g g' → fault g h = fault g' h
  put_congr : ∀ {g g' : γ} (h : Gateway.Handle γ) (b : UInt8), Same g g' → Same (put g h b) (put g' h b)
  /-- A write stores some of its bytes; one that takes none is a refusal. -/
  write_ok : ∀ {g g' : γ} {h : Gateway.Handle γ} {b : Bytes} {n : Nat}, b ≠ [] →
    Gateway.write g h b = (.ok n, g') →
      n ≤ b.length ∧ Alike Same (none, g') (storeBytes fault put h g (b.take n)) ∧
        (n = 0 → fault g h = some .nothingWritten)
  /-- A write that fails stores nothing; unless it was interrupted, the next byte was refused. -/
  write_error : ∀ {g g' : γ} {h : Gateway.Handle γ} {b : Bytes} {e : IoError}, b ≠ [] →
    Gateway.write g h b = (.error e, g') →
      Same g' g ∧ (e.isInterrupted = false → fault g h = some e)
  flush_congr : ∀ {g g' : γ} (h : Gateway.Handle γ), Same g g' →
    Alike Same (Gateway.flush g h) (Gateway.flush g' h)
  close_congr : ∀ {g g' : γ} (h : Gateway.Handle γ), Same g g' →
    Same (Gateway.close g h) (Gateway.close g' h)
  exists_congr : ∀ {g g' : γ} (p : Path), Same g g' →
    Alike Same (Gateway.exists g p) (Gateway.exists g' p)
  mkdir_congr : ∀ {g g' : γ} (p : Path), Same g g' →
    Alike Same (Gateway.mkdir g p) (Gateway.mkdir g' p)
  remove_congr : ∀ {g g' : γ} (p : Path), Same g g' →
    Alike Same (Gateway.remove g p) (Gateway.remove g' p)
  chdir_congr : ∀ {g g' : γ} (p : Path), Same g g' →
    Alike Same (Gateway.chdir g p) (Gateway.chdir g' p)
  list_congr : ∀ {g g' : γ} (p : Path), Same g g' →
    Alike Same (Gateway.list g p) (Gateway.list g' p)
  openFile_congr : ∀ {g g' : γ} (p : Path), Same g g' →
    Alike Same (Gateway.openFile g p) (Gateway.openFile g' p)
  create_congr : ∀ {g g' : γ} (p : Path), Same g g' →
    Alike Same (Gateway.create g p) (Gateway.create g' p)

namespace SteadyGateway

variable {γ : Type} [Gateway γ] [SteadyGateway γ]

theorem same_refl (g : γ) : Same g g := same_equivalence.refl g

theorem same_symm {g g' : γ} (h : Same g g') : Same g' g := same_equivalence.symm h

theorem same_trans {g g' g'' : γ} (h : Same g g') (h' : Same g' g'') : Same g g'' :=
  same_equivalence.trans h h'

def store (g : γ) (h : Gateway.Handle γ) (b : Bytes) : Option IoError × γ :=
  storeBytes fault put h g b

@[simp] theorem store_nil (g : γ) (h : Gateway.Handle γ) : store g h [] = (none, g) := rfl

theorem store_cons (g : γ) (h : Gateway.Handle γ) (b : UInt8) (bs : Bytes) :
    store g h (b :: bs) = match fault g h with
      | some e => (some e, g)
      | none => store (put g h b) h bs := rfl

theorem store_congr {g g' : γ} (h : Gateway.Handle γ) (b : Bytes) (hg : Same g g') :
    Alike Same (store g h b) (store g' h b) := by
  induction b generalizing g g' with
  | nil => exact ⟨rfl, hg⟩
  | cons b bs ih =>
    rw [store_cons, store_cons, ← fault_congr h hg]
    split
    · exact ⟨rfl, hg⟩
    · exact ih (put_congr h b hg)

theorem store_append (g : γ) (h : Gateway.Handle γ) (a b : Bytes) :
    store g h (a ++ b) = match (store g h a).1 with
      | some e => (some e, (store g h a).2)
      | none => store (store g h a).2 h b := by
  induction a generalizing g with
  | nil => rfl
  | cons c a ih =>
    rw [List.cons_append, store_cons, store_cons]
    split
    · rfl
    · exact ih (put g h c)

def report : Option IoError → Except IoError Unit
  | none => .ok ()
  | some e => .error e

theorem writeAll_eq_store (s : Sink γ) (b : Bytes) :
    (Writer.writeAll s b).1 = report (store s.gateway s.handle b).1 ∧
      Same (Writer.writeAll s b).2.gateway (store s.gateway s.handle b).2 := by
  fun_induction Writer.writeAll s b with
  | case1 s => exact ⟨rfl, same_refl _⟩
  | case2 s c cs s' hw =>
    obtain ⟨hwrite, _⟩ := Sink.gateway_write hw
    obtain ⟨_, ⟨_, hsame⟩, hzero⟩ := write_ok (by simp) hwrite
    rw [store_cons, hzero rfl]
    exact ⟨rfl, hsame⟩
  | case3 s c cs n s' hw ih =>
    obtain ⟨hwrite, hhandle⟩ := Sink.gateway_write hw
    obtain ⟨_, ⟨hnone, hsame⟩, _⟩ := write_ok (by simp) hwrite
    rw [List.take_succ_cons] at hnone hsame
    have happend := store_append s.gateway s.handle (c :: cs.take n) (cs.drop n)
    rw [List.cons_append, List.take_append_drop] at happend
    change none = (store s.gateway s.handle (c :: cs.take n)).1 at hnone
    change Same s'.gateway (store s.gateway s.handle (c :: cs.take n)).2 at hsame
    rw [← hnone] at happend
    obtain ⟨hresult, hstate⟩ := store_congr s.handle (cs.drop n) hsame
    rw [happend]
    rw [hhandle] at ih
    exact ⟨ih.1.trans (congrArg report hresult), same_trans ih.2 hstate⟩
  | case4 s c cs e s' hw he ih =>
    obtain ⟨hwrite, hhandle⟩ := Sink.gateway_write hw
    obtain ⟨hsame, _⟩ := write_error (by simp) hwrite
    obtain ⟨hresult, hstate⟩ := store_congr s.handle (c :: cs) hsame
    rw [hhandle] at ih
    exact ⟨ih.1.trans (congrArg report hresult), same_trans ih.2 hstate⟩
  | case5 s c cs e s' hw he =>
    obtain ⟨hwrite, _⟩ := Sink.gateway_write hw
    obtain ⟨hsame, hfault⟩ := write_error (by simp) hwrite
    rw [store_cons, hfault (by simpa using he)]
    exact ⟨rfl, hsame⟩

/-- Stores bytes in an open file that may have failed before. -/
def keep (failure : Option IoError) (g : γ) (h : Gateway.Handle γ) (b : Bytes) : Option IoError × γ :=
  match failure with
  | some e => (some e, g)
  | none => store g h b

theorem keep_congr (failure : Option IoError) {g g' : γ} (h : Gateway.Handle γ) (b : Bytes)
    (hg : Same g g') : Alike Same (keep failure g h b) (keep failure g' h b) := by
  cases failure with
  | none => exact store_congr h b hg
  | some e => exact ⟨rfl, hg⟩

theorem keep_append (failure : Option IoError) (g : γ) (h : Gateway.Handle γ) (a b : Bytes) :
    keep failure g h (a ++ b) = keep (keep failure g h a).1 (keep failure g h a).2 h b := by
  cases failure with
  | none =>
    have hsplit := store_append g h a b
    simp only [keep]
    cases hfirst : (store g h a).1 <;> rw [hfirst] at hsplit <;> exact hsplit
  | some e => rfl

/-- Writing to a file that may have failed before, without regard to how the bytes are cut. -/
theorem attempt_writeAll (failure : Option IoError) (s : Sink γ) (b : Bytes) :
    (Reception.attempt failure s fun sink => Writer.writeAll sink b).1 =
        (keep failure s.gateway s.handle b).1 ∧
      Same (Reception.attempt failure s fun sink => Writer.writeAll sink b).2.gateway
        (keep failure s.gateway s.handle b).2 := by
  cases failure with
  | some e => exact ⟨rfl, same_refl _⟩
  | none =>
    obtain ⟨hresult, hstate⟩ := writeAll_eq_store s b
    simp only [Reception.attempt, keep]
    split
    · rename_i hw
      rw [hw] at hresult hstate
      cases hstore : (store s.gateway s.handle b).1 <;> rw [hstore] at hresult <;> cases hresult
      exact ⟨rfl, hstate⟩
    · rename_i hw
      rw [hw] at hresult hstate
      cases hstore : (store s.gateway s.handle b).1 <;> rw [hstore] at hresult <;> cases hresult
      exact ⟨rfl, hstate⟩

end SteadyGateway

end FileFerry
