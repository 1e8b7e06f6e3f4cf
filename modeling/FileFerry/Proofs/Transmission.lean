import FileFerry.Proofs.Reception

/-!
# What is tried to send a file

Any writer can keep a list of the calls on it. To send a file its bytes are written and then the marker, and
the calls go on until one of them fails (`Delivers`): nothing is tried behind a failure, so no marker stands
behind bytes that are not whole. What is reported is read off the source and off the failure
(`wrote_run`).
-/

set_option autoImplicit false

namespace FileFerry

/-- A call on a writer, with what it came to. -/
inductive Effort where
  | write (content : Bytes) (result : Except IoError Nat)
  | flush (result : Except IoError Unit)

namespace Effort

/-- The bytes that were there to be taken. -/
def offered : Effort → Bytes
  | write content _ => content
  | flush _ => []

/-- The bytes that the call took. -/
def taken : Effort → Bytes
  | write content (.ok n) => content.take n
  | _ => []

/-- How the call failed. A write that was interrupted is made again, which is no failure; to take nothing
is one. -/
def failure? : Effort → Option IoError
  | write _ (.ok 0) => some .nothingWritten
  | write _ (.ok (_ + 1)) => none
  | write _ (.error e) => if e.isInterrupted then none else some e
  | flush result => failureOf result

end Effort

/-- A writer with the calls that were made on it. -/
structure Traced (ω : Type) where
  inner : ω
  efforts : List Effort

/-- The calls of writing `b`: each offers bytes that are next, and behind a failure there is none. -/
inductive Delivers : Bytes → List Effort → Option IoError → Prop where
  | done : Delivers [] [] none
  | goes {effort : Effort} {more : List Effort} {b : Bytes} {failure : Option IoError}
      (hsound : effort.failure? = none) (hoffered : effort.offered <+: effort.taken ++ b)
      (next : Delivers b more failure) : Delivers (effort.taken ++ b) (effort :: more) failure
  | fails {effort : Effort} {b : Bytes} {e : IoError} (hfails : effort.failure? = some e)
      (hoffered : effort.offered <+: b) : Delivers b [effort] (some e)

namespace Delivers

variable {a b : Bytes} {efforts more : List Effort} {failure : Option IoError}

theorem append (h : Delivers a efforts none) (h' : Delivers b more failure) :
    Delivers (a ++ b) (efforts ++ more) failure := by
  generalize hsound : (none : Option IoError) = sound at h
  induction h with
  | done => exact h'
  | @goes effort _ a _ hsound' hoffered next ih =>
    rw [List.append_assoc]
    refine .goes hsound' ?_ (ih hsound)
    rw [← List.append_assoc]
    exact hoffered.trans (List.prefix_append _ b)
  | fails => cases hsound

/-- Behind a failure it does not matter what else there was to be written. -/
theorem cut_short {e : IoError} (h : Delivers a efforts (some e)) (b : Bytes) :
    Delivers (a ++ b) efforts (some e) := by
  generalize hfailure : some e = failure at h
  induction h with
  | done => cases hfailure
  | @goes effort _ a _ hsound hoffered next ih =>
    subst hfailure
    rw [List.append_assoc]
    refine .goes hsound ?_ (ih rfl)
    rw [← List.append_assoc]
    exact hoffered.trans (List.prefix_append _ b)
  | fails hfails hoffered =>
    cases hfailure
    exact .fails hfails (hoffered.trans (List.prefix_append _ b))

end Delivers

namespace Traced

variable {ω : Type} [Writer ω]

def note {α : Type} (w : Traced ω) (effort : α → Effort) (outcome : α × ω) : α × Traced ω :=
  (outcome.1, ⟨outcome.2, w.efforts ++ [effort outcome.1]⟩)

instance : Writer (Traced ω) where
  write w b := w.note (.write b) (Writer.write w.inner b)
  flush w := w.note .flush (Writer.flush w.inner)
  patience w := Writer.patience w.inner
  patience_lt w b e he hi := Writer.patience_lt w.inner b e he hi

theorem efforts_write {w w' : Traced ω} {b : Bytes} {result : Except IoError Nat}
    (h : Writer.write w b = (result, w')) : w'.efforts = w.efforts ++ [.write b result] := by
  obtain ⟨rfl, rfl⟩ := Prod.mk.inj h
  rfl

theorem efforts_flush {w w' : Traced ω} {result : Except IoError Unit} (h : Writer.flush w = (result, w')) :
    w'.efforts = w.efforts ++ [.flush result] := by
  obtain ⟨rfl, rfl⟩ := Prod.mk.inj h
  rfl

/-- What a writer that takes everything holds, with its calls noted. -/
theorem accepts {holds : ω → Bytes → Prop} (h : Writer.Accepts holds) :
    Writer.Accepts fun (w : Traced ω) b => holds w.inner b := by
  constructor
  · intro w b c hw hc
    change (∃ n w', w.note (.write c) (Writer.write w.inner c) = (.ok (n + 1), w') ∧ _) ∨
      ∃ e w', w.note (.write c) (Writer.write w.inner c) = (.error e, w') ∧ _
    rcases h.write hw hc with ⟨n, v, hwrite, hheld⟩ | ⟨e, v, hwrite, hagain, hheld⟩
    · rw [hwrite]
      exact .inl ⟨n, _, rfl, hheld⟩
    · rw [hwrite]
      exact .inr ⟨e, _, rfl, hagain, hheld⟩
  · intro w b hw
    change ∃ w', w.note .flush (Writer.flush w.inner) = (.ok (), w') ∧ _
    obtain ⟨v, hflush, hheld⟩ := h.flush hw
    rw [hflush]
    exact ⟨_, rfl, hheld⟩

/-- From `w` to `w'` the calls are those of writing `b`. -/
def Wrote (w w' : Traced ω) (b : Bytes) (failure : Option IoError) : Prop :=
  ∃ efforts, w'.efforts = w.efforts ++ efforts ∧ Delivers b efforts failure

namespace Wrote

omit [Writer ω]

variable {w w' w'' : Traced ω} {a b : Bytes} {effort : Effort} {failure : Option IoError}

theorem goes (hefforts : w'.efforts = w.efforts ++ [effort]) (hsound : effort.failure? = none)
    (hoffered : effort.offered <+: effort.taken ++ b) (next : w'.Wrote w'' b failure) :
    w.Wrote w'' (effort.taken ++ b) failure := by
  obtain ⟨more, hmore, hdelivers⟩ := next
  refine ⟨effort :: more, ?_, .goes hsound hoffered hdelivers⟩
  rw [hmore, hefforts, List.append_assoc, List.singleton_append]

theorem fails {e : IoError} (hefforts : w'.efforts = w.efforts ++ [effort]) (hfails : effort.failure? = some e)
    (hoffered : effort.offered <+: b) : w.Wrote w' b (some e) :=
  ⟨[effort], hefforts, .fails hfails hoffered⟩

theorem refl (w : Traced ω) : w.Wrote w [] none := ⟨[], (List.append_nil _).symm, .done⟩

theorem trans (h : w.Wrote w' a none) (h' : w'.Wrote w'' b failure) : w.Wrote w'' (a ++ b) failure := by
  obtain ⟨efforts, hefforts, hdelivers⟩ := h
  obtain ⟨more, hmore, hdelivers'⟩ := h'
  refine ⟨efforts ++ more, ?_, hdelivers.append hdelivers'⟩
  rw [hmore, hefforts, List.append_assoc]

theorem cut_short {e : IoError} (h : w.Wrote w' a (some e)) (b : Bytes) : w.Wrote w' (a ++ b) (some e) := by
  obtain ⟨efforts, hefforts, hdelivers⟩ := h
  exact ⟨efforts, hefforts, hdelivers.cut_short b⟩

end Wrote

theorem wrote_writeAll (w : Traced ω) (b : Bytes) :
    w.Wrote (Writer.writeAll w b).2 b (failureOf (Writer.writeAll w b).1) := by
  fun_induction Writer.writeAll w b with
  | case1 w => exact .refl w
  | case2 w c cs w' hwrite =>
    have hrefused : (Effort.write (c :: cs) (.ok 0)).failure? = some .nothingWritten := rfl
    exact .fails (efforts_write hwrite) hrefused List.prefix_rfl
  | case3 w c cs n w' hwrite ih =>
    have htook : (Effort.write (c :: cs) (.ok (n + 1))).failure? = none := rfl
    have hall : (c :: cs).take (n + 1) ++ cs.drop n = c :: cs := List.take_append_drop (n + 1) (c :: cs)
    have hnext : c :: cs <+: (c :: cs).take (n + 1) ++ cs.drop n := ⟨[], (List.append_nil _).trans hall.symm⟩
    have hwrote := Wrote.goes (efforts_write hwrite) htook hnext ih
    change w.Wrote _ ((c :: cs).take (n + 1) ++ cs.drop n) _ at hwrote
    rwa [hall] at hwrote
  | case4 w c cs e w' hwrite he ih =>
    have hagain : (Effort.write (c :: cs) (.error e)).failure? = none := if_pos he
    exact .goes (efforts_write hwrite) hagain List.prefix_rfl ih
  | case5 w c cs e w' hwrite he =>
    have hfailed : (Effort.write (c :: cs) (.error e)).failure? = some e := if_neg he
    exact .fails (efforts_write hwrite) hfailed List.prefix_rfl

theorem wrote_flush (w : Traced ω) : w.Wrote (Writer.flush w).2 [] (failureOf (Writer.flush w).1) := by
  cases hflush : Writer.flush w with
  | mk result w' =>
    cases result with
    | ok =>
      have hsound : (Effort.flush (.ok ())).failure? = none := rfl
      exact .goes (efforts_flush hflush) hsound List.nil_prefix (.refl w')
    | error e =>
      have hfailed : (Effort.flush (.error e)).failure? = some e := rfl
      exact .fails (efforts_flush hflush) hfailed List.nil_prefix

theorem wrote_send (w : Traced ω) (b : Bytes) :
    w.Wrote (Writer.send w b).2 b (failureOf (Writer.send w b).1) := by
  have hwrote := wrote_writeAll w b
  unfold Writer.send
  split
  · rename_i w' hwrite
    rw [hwrite] at hwrote
    have hall := hwrote.trans (wrote_flush w')
    rwa [List.append_nil] at hall
  · rename_i e w' hwrite
    rwa [hwrite] at hwrote

/-- To write `b`, from `w` to `w'`: the calls are those of writing it, and a writer that takes everything has it
then. -/
structure Sends (w w' : Traced ω) (b : Bytes) (failure : Option IoError) : Prop where
  wrote : w.Wrote w' b failure
  whole : ∀ {holds : ω → Bytes → Prop} {said : Bytes}, Writer.Accepts holds → holds w.inner said →
    failure = none ∧ holds w'.inner (said ++ b)

theorem sends_send (w : Traced ω) (b : Bytes) :
    w.Sends (Writer.send w b).2 b (failureOf (Writer.send w b).1) := by
  refine ⟨w.wrote_send b, ?_⟩
  intro holds said haccepts hsaid
  obtain ⟨w', hsend, hheld⟩ := (accepts haccepts).send (w := w) hsaid b
  rw [hsend]
  exact ⟨rfl, hheld⟩

end Traced

/-! ## A file -/

/-- The outcome unless the output failed. -/
def Transmission.unless (outcome : Transmission) : Option IoError → Transmission
  | some e => .outputFailed e
  | none => outcome

/-- What is reported of a file of which everything was sent that could be read. -/
def Source.report (src : Source) : Transmission :=
  match src.failure? with
  | some e => .sourceFailed e
  | none => .sent src.content.length

namespace Sending

def report (s : Sending) : Transmission :=
  match s.source.failure? with
  | some e => .sourceFailed e
  | none => .sent (s.count + s.source.content.length)

theorem report_ofSource (src : Source) : (ofSource src).report = src.report := by
  unfold report Source.report ofSource
  simp only [Nat.zero_add]

variable {ω : Type} [Writer ω]

theorem wrote_finish (outcome : Transmission) (w : Traced ω) :
    ∃ failure w', finish outcome w = (.ended (outcome.unless failure), w') ∧ w.Wrote w' endMarker failure := by
  have hwrote := Traced.wrote_send w endMarker
  unfold finish
  split
  · rename_i w' hsend
    rw [hsend] at hwrote
    exact ⟨none, w', rfl, hwrote⟩
  · rename_i e w' hsend
    rw [hsend] at hwrote
    exact ⟨some e, w', rfl, hwrote⟩

/-- A step sends a chunk and goes on, or it is the last: it sends the marker, or fails. -/
theorem wrote_step (s : Sending) (w : Traced ω) :
    (∃ failure w', s.step w = (.ended (s.report.unless failure), w') ∧
      w.Wrote w' (s.source.content ++ endMarker) failure) ∨
      ∃ chunk rest w', s.step w = (.more rest, w') ∧ w.Wrote w' chunk none ∧
        s.source.content = chunk ++ rest.source.content ∧ rest.report = s.report := by
  unfold step
  split
  · rename_i hread
    obtain ⟨failure, w', hfinish, hwrote⟩ := wrote_finish (.sent s.count) w
    have hnothing := Source.content_of_readAgain_end (by decide) hread
    have hreport : s.report = .sent s.count := by
      simp only [report, Source.failure?_of_readAgain_end (by decide) hread, hnothing, List.length_nil, Nat.add_zero]
    rw [hreport, hnothing]
    exact .inl ⟨failure, w', hfinish, hwrote⟩
  · rename_i e rest hread
    obtain ⟨failure, w', hfinish, hwrote⟩ := wrote_finish (.sourceFailed e) w
    have hreport : s.report = .sourceFailed e := by
      simp only [report, Source.failure?_of_readAgain_error hread]
    rw [hreport, Source.content_of_readAgain_error hread]
    exact .inl ⟨failure, w', hfinish, hwrote⟩
  · rename_i b bs rest hread
    have hcontent := Source.content_of_readAgain_ok hread
    have hwrote := Traced.wrote_send w (b :: bs)
    split
    · rename_i w' hsend
      rw [hsend] at hwrote
      refine .inr ⟨b :: bs, _, w', rfl, hwrote, hcontent, ?_⟩
      simp only [report, Source.failure?_of_readAgain_ok hread, hcontent, List.length_append, Nat.add_assoc]
    · rename_i e w' hsend
      rw [hsend] at hwrote
      refine .inl ⟨some e, w', rfl, ?_⟩
      rw [hcontent, List.append_assoc]
      exact hwrote.cut_short _

/-- However a file is read and whatever becomes of it, the calls are those of writing its bytes and the marker. -/
theorem wrote_run (s : Sending) (w : Traced ω) :
    ∃ failure, (s.run w).1 = s.report.unless failure ∧
      w.Wrote (s.run w).2 (s.source.content ++ endMarker) failure := by
  fun_induction run s w with
  | case1 s w outcome w' hstep =>
    rcases s.wrote_step w with ⟨failure, v, hv, hwrote⟩ | ⟨_, _, v, hv, -⟩
    · rw [hstep] at hv
      cases hv
      exact ⟨failure, rfl, hwrote⟩
    · rw [hstep] at hv
      cases hv
  | case2 s w rest w' hstep ih =>
    rcases s.wrote_step w with ⟨_, v, hv, -⟩ | ⟨chunk, _, v, hv, hwrote, hcontent, hreport⟩
    · rw [hstep] at hv
      cases hv
    · rw [hstep] at hv
      cases hv
      obtain ⟨failure, houtcome, hmore⟩ := ih
      rw [hreport] at houtcome
      rw [hcontent, List.append_assoc]
      exact ⟨failure, houtcome, hwrote.trans hmore⟩

/-- To a writer that takes everything a file is sent without a failure. -/
theorem run_ne_outputFailed {holds : ω → Bytes → Prop} (h : Writer.Accepts holds) (s : Sending) {w : ω}
    {b : Bytes} (hw : holds w b) (e : IoError) : (s.run w).1 ≠ .outputFailed e := by
  fun_induction run s w generalizing b with
  | case1 s w outcome w' hstep =>
    rcases s.step_accepts h hw with ⟨_, v, hv, -, -, hne⟩ | ⟨_, _, v, hv, -⟩
    · rw [hstep] at hv
      cases hv
      exact hne e
    · rw [hstep] at hv
      cases hv
  | case2 s w rest w' hstep ih =>
    rcases s.step_accepts h hw with ⟨_, v, hv, -⟩ | ⟨_, _, v, hv, -, hheld⟩
    · rw [hstep] at hv
      cases hv
    · rw [hstep] at hv
      cases hv
      exact ih hheld

/-- A file is sent: its bytes as far as they can be read, and the marker behind them. -/
theorem sends_run (src : Source) (w : Traced ω) :
    ∃ failure, ((ofSource src).run w).1 = src.report.unless failure ∧
      w.Sends ((ofSource src).run w).2 (src.content ++ endMarker) failure := by
  obtain ⟨failure, houtcome, hwrote⟩ := (ofSource src).wrote_run w
  rw [report_ofSource] at houtcome
  refine ⟨failure, houtcome, hwrote, ?_⟩
  intro holds said haccepts hsaid
  have htraced := Traced.accepts haccepts
  refine ⟨?_, run_accepts htraced (ofSource src) (w := w) hsaid⟩
  cases failure with
  | none => rfl
  | some e => exact absurd houtcome (run_ne_outputFailed htraced (ofSource src) (w := w) hsaid e)

end Sending

end FileFerry
