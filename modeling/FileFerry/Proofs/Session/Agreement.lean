import FileFerry.Proofs.Gateway.Steady
import FileFerry.Proofs.Session.Reading

/-!
# Sessions that differ in nothing that shows

On a steady gateway two sessions agree when all but their input is equal and their gateways are the
same to every call. Whatever a session does keeps agreement; so does the way a payload is
cut (`storePayload_append`).
-/

set_option autoImplicit false

namespace FileFerry

open SteadyGateway

variable {γ ω : Type} [Gateway γ] [SteadyGateway γ]

theorem Alike.exists_eq {α : Type} {x y : α × γ} (h : Alike Same x y) :
    ∃ a g g', x = (a, g) ∧ y = (a, g') ∧ Same g g' := by
  obtain ⟨a, g⟩ := x
  obtain ⟨a', g'⟩ := y
  obtain ⟨heq, hg⟩ := h
  obtain rfl : a = a' := heq
  exact ⟨a, g, g', rfl, rfl, hg⟩

namespace Upload

/-- How a payload is cut does not matter to the upload, and not to the gateway either. -/
theorem store_eq_keep (u : Upload γ) (g : γ) (b : Bytes) :
    (u.store g b).1 = { u with
        reception := ⟨.empty, u.reception.received + b.length,
          (keep u.reception.failure g u.handle b).1⟩ } ∧
      Same (u.store g b).2 (keep u.reception.failure g u.handle b).2 := by
  obtain ⟨hfailure, hgateway⟩ := attempt_writeAll u.reception.failure (⟨g, u.handle⟩ : Sink γ) b
  unfold store
  rw [← hfailure]
  exact ⟨rfl, hgateway⟩

theorem store_congr (u : Upload γ) {g g' : γ} (hg : Same g g') (b : Bytes) :
    Alike Same (u.store g b) (u.store g' b) := by
  obtain ⟨hupload, hgateway⟩ := u.store_eq_keep g b
  obtain ⟨hupload', hgateway'⟩ := u.store_eq_keep g' b
  obtain ⟨hfailure, hkeep⟩ := keep_congr u.reception.failure u.handle b hg
  constructor
  · rw [hupload, hupload', hfailure]
  · exact same_trans hgateway (same_trans hkeep (same_symm hgateway'))

theorem store_append (u : Upload γ) (g : γ) (a b : Bytes) :
    Alike Same (u.store g (a ++ b)) ((u.store g a).1.store (u.store g a).2 b) := by
  obtain ⟨hwhole, hwholeGateway⟩ := u.store_eq_keep g (a ++ b)
  obtain ⟨hfirst, hfirstGateway⟩ := u.store_eq_keep g a
  rw [keep_append] at hwhole hwholeGateway
  rw [hfirst]
  obtain ⟨hlast, hlastGateway⟩ :=
    store_eq_keep { u with reception := ⟨.empty, u.reception.received + a.length,
      (keep u.reception.failure g u.handle a).1⟩ } (u.store g a).2 b
  obtain ⟨hfailure, hkeep⟩ :=
    keep_congr (keep u.reception.failure g u.handle a).1 u.handle b hfirstGateway
  constructor
  · rw [hwhole, hlast, ← hfailure]
    simp only [List.length_append, Nat.add_assoc]
  · exact same_trans hwholeGateway (same_trans (same_symm hkeep) (same_symm hlastGateway))

theorem flush_congr (u : Upload γ) {g g' : γ} (hg : Same g g') :
    Alike Same (u.flush g) (u.flush g') := by
  unfold flush
  cases u.reception.failure with
  | some e => exact ⟨rfl, hg⟩
  | none =>
    obtain ⟨result, g₁, g₁', h, h', hg'⟩ := (SteadyGateway.flush_congr u.handle hg).exists_eq
    simp only [Reception.attempt, Writer.flush, h, h']
    cases result <;> exact ⟨rfl, hg'⟩

end Upload

namespace Session

/-- Nothing shows a difference between two sessions but what they have received. -/
structure Agree (s s' : Session γ ω) : Prop where
  gateway : Same s.gateway s'.gateway
  registry : s.registry = s'.registry
  output : s.output = s'.output
  cwd : s.cwd = s'.cwd
  phase : s.phase = s'.phase

namespace Agree

variable {s s' s'' : Session γ ω}

theorem symm (h : s.Agree s') : s'.Agree s :=
  ⟨same_symm h.gateway, h.registry.symm, h.output.symm, h.cwd.symm, h.phase.symm⟩

theorem trans (h : s.Agree s') (h' : s'.Agree s'') : s.Agree s'' :=
  ⟨same_trans h.gateway h'.gateway, h.registry.trans h'.registry, h.output.trans h'.output,
    h.cwd.trans h'.cwd, h.phase.trans h'.phase⟩

theorem withInput (s : Session γ ω) (input : InputBuffer) : s.Agree (s.withInput input) :=
  ⟨same_refl _, rfl, rfl, rfl, rfl⟩

/-- Sessions that agree are one session on two gateways that are the same. -/
theorem exists_eq (h : s.Agree s') :
    ∃ g', Same s.gateway g' ∧ s' = ({ s with gateway := g' } : Session γ ω).withInput s'.input := by
  obtain ⟨gateway, registry, output, cwd, input, phase⟩ := s
  obtain ⟨gateway', registry', output', cwd', input', phase'⟩ := s'
  obtain ⟨hg, hr, ho, hc, hp⟩ := h
  obtain rfl : registry = registry' := hr
  obtain rfl : output = output' := ho
  obtain rfl : cwd = cwd' := hc
  obtain rfl : phase = phase' := hp
  exact ⟨gateway', hg, rfl⟩

end Agree

def AgreeHandled (x y : Handled γ ω) : Prop := x.1 = y.1 ∧ x.2.Agree y.2

variable {s s' : Session γ ω}

theorem Agree.close (h : s.Agree s') : s.close.Agree s'.close :=
  ⟨h.gateway, h.registry, h.output, h.cwd, rfl⟩

theorem Agree.discardUpload (h : s.Agree s') (u : Upload γ) :
    (s.discardUpload u).Agree (s'.discardUpload u) := by
  obtain ⟨_, hg⟩ := remove_congr u.path (close_congr u.handle h.gateway)
  exact ⟨hg, congrArg (·.finish u.entry) h.registry, h.output, h.cwd, h.phase⟩

theorem Agree.completeUpload (h : s.Agree s') (u : Upload γ) (failure : Option IoError) :
    AgreeHandled (s.completeUpload u failure) (s'.completeUpload u failure) := by
  have hcommand : ({ s with phase := .command } : Session γ ω).Agree { s' with phase := .command } :=
    ⟨h.gateway, h.registry, h.output, h.cwd, rfl⟩
  cases failure with
  | none =>
    have hg := close_congr u.handle h.gateway
    exact ⟨rfl, hg, congrArg (·.finish u.entry) h.registry, h.output, h.cwd, rfl⟩
  | some e => exact ⟨rfl, hcommand.discardUpload u⟩

theorem Agree.lose (h : s.Agree s') : s.lose.Agree s'.lose := by
  have hphase := h.phase
  unfold Session.lose
  rw [← hphase]
  cases s.phase with
  | closed => exact h
  | command => exact h.close
  | sending entry file =>
    exact ⟨h.gateway, congrArg (·.finish entry) h.registry, h.output, h.cwd, rfl⟩
  | receiving u => exact (h.discardUpload u).close

variable [Writer ω]

theorem Agree.answer (h : s.Agree s') (outcome : Except CommandError Reply) :
    (s.answer outcome).Agree (s'.answer outcome) := by
  have hsend (t : Text) : (s.sendText t).Agree (s'.sendText t) :=
    ⟨h.gateway, h.registry, by simp only [sendText, h.output], h.cwd, h.phase⟩
  unfold Session.answer
  split
  · exact hsend _
  · exact h
  · exact h.close
  · exact h.close
  · exact hsend _

section Commands

variable {g' : γ}

/-- A command does the same on gateways that are the same: it calls them with equal arguments and is
given equal answers. -/
theorem execute_gateway (s : Session γ ω) (hg : Same s.gateway g') (verb : Verb) (argument : Text) :
    AgreeHandled (s.execute verb argument)
      (({ s with gateway := g' } : Session γ ω).execute verb argument) := by
  cases verb <;> simp only [execute]
  case pwd => exact ⟨rfl, hg, rfl, rfl, rfl, rfl⟩
  case quit => exact ⟨rfl, hg, rfl, rfl, rfl, rfl⟩
  case ls =>
    obtain ⟨result, g₁, g₁', h, h', hg₁⟩ := (list_congr s.cwd hg).exists_eq
    simp only [listDirectory, h, h']
    cases result <;> exact ⟨rfl, hg₁, rfl, rfl, rfl, rfl⟩
  case cd =>
    cases hname : requireName argument .directory with
    | error e =>
      simp only [changeDirectory, hname]
      exact ⟨rfl, hg, rfl, rfl, rfl, rfl⟩
    | ok name =>
      obtain ⟨result, g₁, g₁', h, h', hg₁⟩ := (chdir_congr (s.resolve name) hg).exists_eq
      simp only [resolve] at h h'
      simp only [changeDirectory, hname, resolve, h, h']
      cases result <;> exact ⟨rfl, hg₁, rfl, rfl, rfl, rfl⟩
  case mkdir =>
    cases hname : requireName argument .directory with
    | error e =>
      simp only [makeDirectory, hname]
      exact ⟨rfl, hg, rfl, rfl, rfl, rfl⟩
    | ok name =>
      obtain ⟨found, g₁, g₁', h, h', hg₁⟩ := (exists_congr (s.resolve name) hg).exists_eq
      obtain ⟨result, g₂, g₂', k, k', hg₂⟩ := (mkdir_congr (s.resolve name) hg₁).exists_eq
      simp only [resolve] at h h' k k'
      simp only [makeDirectory, hname, resolve, h, h']
      cases found with
      | true => exact ⟨rfl, hg₁, rfl, rfl, rfl, rfl⟩
      | false =>
        simp only [k, k']
        cases result <;> exact ⟨rfl, hg₂, rfl, rfl, rfl, rfl⟩
  case delete =>
    cases hname : requireName argument .file with
    | error e =>
      simp only [deleteFile, hname]
      exact ⟨rfl, hg, rfl, rfl, rfl, rfl⟩
    | ok name =>
      obtain ⟨found, g₁, g₁', h, h', hg₁⟩ := (exists_congr (s.resolve name) hg).exists_eq
      obtain ⟨result, g₂, g₂', k, k', hg₂⟩ := (remove_congr (s.resolve name) hg₁).exists_eq
      simp only [resolve] at h h' k k'
      simp only [deleteFile, hname, resolve, h, h']
      cases found with
      | false => exact ⟨rfl, hg₁, rfl, rfl, rfl, rfl⟩
      | true =>
        simp only [k, k']
        cases result <;> exact ⟨rfl, hg₂, rfl, rfl, rfl, rfl⟩
  case get =>
    cases hname : requireName argument .file with
    | error e =>
      simp only [beginDownload, hname]
      exact ⟨rfl, hg, rfl, rfl, rfl, rfl⟩
    | ok name =>
      obtain ⟨found, g₁, g₁', h, h', hg₁⟩ := (exists_congr (s.resolve name) hg).exists_eq
      obtain ⟨result, g₂, g₂', k, k', hg₂⟩ := (openFile_congr (s.resolve name) hg₁).exists_eq
      simp only [resolve] at h h' k k'
      simp only [beginDownload, hname, resolve, h, h']
      cases found with
      | false => exact ⟨rfl, hg₁, rfl, rfl, rfl, rfl⟩
      | true =>
        simp only [k, k']
        cases result <;> exact ⟨rfl, hg₂, rfl, rfl, rfl, rfl⟩
  case put =>
    cases hname : requireName argument .file with
    | error e =>
      simp only [beginUpload, hname]
      exact ⟨rfl, hg, rfl, rfl, rfl, rfl⟩
    | ok name =>
      obtain ⟨result, g₁, g₁', h, h', hg₁⟩ := (create_congr (s.resolve name) hg).exists_eq
      simp only [resolve] at h h'
      simp only [beginUpload, hname, resolve, h, h']
      cases result <;> exact ⟨rfl, hg₁, rfl, rfl, rfl, rfl⟩

end Commands

theorem Agree.handleLine (h : s.Agree s') (line : Text) : (s.handleLine line).Agree (s'.handleLine line) := by
  obtain ⟨g', hg, heq⟩ := h.exists_eq
  rw [heq, handleLine_withInput]
  refine Agree.trans ?_ (Agree.withInput _ _)
  have hsame : s.Agree { s with gateway := g' } := ⟨hg, rfl, rfl, rfl, rfl⟩
  unfold Session.handleLine
  split
  · exact ⟨hg, rfl, rfl, rfl, rfl⟩
  · split
    · exact hsame.answer _
    · rename_i command _ _ verb _
      obtain ⟨houtcome, hafter⟩ := execute_gateway s hg verb command.argument
      dsimp only
      rw [← houtcome]
      exact hafter.answer _

omit [Writer ω] in
theorem Agree.storePayload (h : s.Agree s') (u : Upload γ) (b : Bytes) :
    (s.storePayload u b).Agree (s'.storePayload u b) := by
  obtain ⟨hupload, hg⟩ := u.store_congr h.gateway b
  exact ⟨hg, h.registry, h.output, h.cwd, congrArg Phase.receiving hupload⟩

omit [Writer ω] in
/-- A payload may be stored in two parts. -/
theorem storePayload_append (s : Session γ ω) (u : Upload γ) (a b : Bytes) :
    (s.storePayload u (a ++ b)).Agree
      ((s.storePayload u a).storePayload (u.store s.gateway a).1 b) := by
  obtain ⟨hupload, hg⟩ := u.store_append s.gateway a b
  exact ⟨hg, rfl, rfl, rfl, congrArg Phase.receiving hupload⟩

theorem Agree.endPayload (h : s.Agree s') (u : Upload γ) : (s.endPayload u).Agree (s'.endPayload u) := by
  obtain ⟨failure, g, g', hf, hf', hg⟩ := (u.flush_congr h.gateway).exists_eq
  unfold Session.endPayload
  rw [hf, hf']
  have hflushed : ({ s with gateway := g } : Session γ ω).Agree { s' with gateway := g' } :=
    ⟨hg, h.registry, h.output, h.cwd, h.phase⟩
  obtain ⟨houtcome, hafter⟩ := hflushed.completeUpload u failure
  simp only [houtcome]
  exact hafter.answer _

end Session

end FileFerry
