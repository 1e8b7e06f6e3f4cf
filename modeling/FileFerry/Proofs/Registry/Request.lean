import FileFerry.Client.Run
import FileFerry.Gateway.Scripted
import FileFerry.Proofs.Cancellation
import FileFerry.Proofs.Lines
import FileFerry.Proofs.Registry.Table
import FileFerry.Proofs.Streams
import FileFerry.Registry.Request

/-!
# From a cancellation request to the registry

However a request comes in, enough of it is read to know its number, and the one command of that
number is cancelled (`request_cancels_its_command`). A stream that brings no readable request leaves
the registry as it was.
-/

set_option autoImplicit false

namespace FileFerry

/-! ## Reading a request -/

/-- What is read of a request is what came first, up to a newline, the longest length or the end. -/
theorem readRequest_ok {payload p : Bytes} {src rest : Source} (h : readRequest payload src = (.ok p, rest))
    (hlength : payload.length ≤ maxRequestBytes) :
    p <+: payload ++ src.content ∧ p.length ≤ maxRequestBytes ∧
      (newline ∈ p ∨ p.length = maxRequestBytes ∨ p = payload ++ src.content ∧ src.failure? = none) := by
  fun_induction readRequest payload src with
  | case1 payload src hmore e rest' hread => simp at h
  | case2 payload src hmore rest' hread =>
    obtain ⟨hp, -⟩ := Prod.mk.inj h
    obtain rfl := Except.ok.inj hp
    have hroom : 0 < maxRequestBytes - payload.length := by omega
    rw [Source.content_of_readAgain_end hroom hread, List.append_nil]
    exact ⟨List.prefix_rfl, hlength, .inr (.inr ⟨rfl, Source.failure?_of_readAgain_end hroom hread⟩)⟩
  | case3 payload src hmore b bs rest' hread ih =>
    have hchunk := Source.length_le_of_readAgain hread
    rw [Source.content_of_readAgain_ok hread, ← Source.failure?_of_readAgain_ok hread, ← List.append_assoc]
    apply ih h
    rw [List.length_append]
    omega
  | case4 payload src hdone =>
    obtain ⟨hp, -⟩ := Prod.mk.inj h
    obtain rfl := Except.ok.inj hp
    refine ⟨List.prefix_append _ _, hlength, ?_⟩
    by_cases hnewline : newline ∈ payload
    · exact .inl hnewline
    · have hfull : ¬ payload.length < maxRequestBytes := fun hlt => hdone ⟨hlt, hnewline⟩
      exact .inr (.inl (by omega))

/-- A failure for good is met where neither a newline nor the longest length comes before it, and there
alone. -/
theorem readRequest_error_iff {payload : Bytes} {src : Source} {e : IoError} :
    (readRequest payload src).1 = .error e ↔
      src.failure? = some e ∧ newline ∉ payload ++ src.content ∧
        (payload ++ src.content).length < maxRequestBytes := by
  fun_induction readRequest payload src with
  | case1 payload src hmore e' rest' hread =>
    rw [Source.content_of_readAgain_error hread, Source.failure?_of_readAgain_error hread, List.append_nil]
    simp [hmore]
  | case2 payload src hmore rest' hread =>
    have hroom : 0 < maxRequestBytes - payload.length := by omega
    simp [Source.failure?_of_readAgain_end hroom hread]
  | case3 payload src hmore b bs rest' hread ih =>
    rw [ih, Source.content_of_readAgain_ok hread, ← Source.failure?_of_readAgain_ok hread, ← List.append_assoc]
  | case4 payload src hdone =>
    constructor
    · intro h
      cases h
    · rintro ⟨-, hnewline, hlength⟩
      refine absurd ⟨?_, ?_⟩ hdone
      · rw [List.length_append] at hlength
        omega
      · exact fun hmem => hnewline (List.mem_append_left _ hmem)

/-- A request that ends in a newline is read to its end, however it is cut. -/
theorem readRequest_of_line {line : Bytes} (hline : newline ∉ line) (hlength : line.length < maxRequestBytes)
    {src : Source} {extra : Bytes} (h : src.content = line ++ [newline] ++ extra) :
    ∃ more, (readRequest [] src).1 = .ok (line ++ [newline] ++ more) ∧ more <+: extra := by
  cases hread : readRequest [] src with
  | mk result rest =>
    cases result with
    | error e =>
      have herror := readRequest_error_iff.mp (congrArg Prod.fst hread)
      refine absurd ?_ herror.2.1
      simp [h]
    | ok p =>
      obtain ⟨hfirst, -, hend⟩ := readRequest_ok hread (Nat.zero_le _)
      rw [List.nil_append, h] at hfirst hend
      have hlong : (line ++ [newline]).length ≤ p.length := by
        rcases hend with hnewline | hfull | ⟨hall, -⟩
        · by_contra hshort
          rw [List.length_append, List.length_singleton] at hshort
          have hwithin : line <+: line ++ [newline] ++ extra := by
            rw [List.append_assoc]
            exact List.prefix_append ..
          have hp : p <+: line := List.prefix_of_prefix_length_le hfirst hwithin (by omega)
          exact hline (hp.subset hnewline)
        · rw [List.length_append, List.length_singleton]
          omega
        · rw [hall]
          exact (List.prefix_append _ extra).length_le
      obtain ⟨more, rfl⟩ := List.prefix_of_prefix_length_le (List.prefix_append _ extra) hfirst hlong
      exact ⟨more, rfl, (List.prefix_append_right_inj _).mp hfirst⟩

/-! ## Asking -/

namespace Client

variable {φ τ κ δ : Type} [Gateway φ] [Writer τ] [Canceller δ]

/-- A number that can be read is asked to be cancelled, once. -/
theorem canceller_terminate (c : Client φ τ κ δ) {argument : Text} {n : Nat}
    (h : Decimal.readNat Decimal.maxUnsigned argument = .ok n) : (c.terminate argument).canceller =
      (Canceller.request c.canceller (CommandId.request ⟨UInt64.ofNat n⟩)).2 := by
  simp only [terminate, h]
  split
  · rename_i canceller hrequest
    obtain ⟨_, _, htell⟩ := tell_eq { c with canceller } _
    rw [htell, hrequest]
  · rename_i reason canceller hrequest
    obtain ⟨_, _, hreport⟩ := report_eq { c with canceller } _
    rw [hreport, hrequest]

end Client

/-! ## Obeying -/

namespace Registry

/-- Every command on the table has one entry and a flag of its own. -/
structure Sound (r : Registry) : Prop where
  keys_nodup : (r.entries.map Prod.fst).Nodup
  flags_nodup : (r.entries.map Prod.snd).Nodup
  flag_lt : ∀ entry ∈ r.entries, entry.2 < r.flags.length

namespace Sound

variable {r : Registry}

theorem empty : Registry.empty.Sound := ⟨List.nodup_nil, List.nodup_nil, fun _ h => nomatch h⟩

theorem without (h : r.Sound) (id : CommandId) {r' : Registry}
    (hentries : r'.entries = Registry.without id r.entries) (hflags : r'.flags.length = r.flags.length) :
    r'.Sound := by
  refine ⟨?_, ?_, ?_⟩
  · rw [hentries]
    exact keys_without_nodup h.keys_nodup id
  · rw [hentries]
    exact (List.Sublist.map Prod.snd List.filter_sublist).nodup h.flags_nodup
  · intro entry hentry
    rw [hentries] at hentry
    rw [hflags]
    exact h.flag_lt entry (mem_without.mp hentry).1

theorem insert (h : r.Sound) (id : CommandId) : (r.insert id).2.Sound := by
  have hrest : ({ r with entries := Registry.without id r.entries } : Registry).Sound := h.without id rfl rfl
  refine ⟨?_, ?_, ?_⟩
  · refine List.nodup_cons.mpr ⟨?_, hrest.keys_nodup⟩
    intro hmem
    obtain ⟨entry, hentry, hkey⟩ := List.mem_map.mp hmem
    exact (mem_without.mp hentry).2 hkey
  · refine List.nodup_cons.mpr ⟨?_, hrest.flags_nodup⟩
    intro hmem
    obtain ⟨entry, hentry, hflag⟩ := List.mem_map.mp hmem
    have hlt : entry.2 < r.flags.length := hrest.flag_lt entry hentry
    exact absurd (hflag ▸ hlt) (Nat.lt_irrefl _)
  · intro entry hentry
    have hlength : (r.insert id).2.flags.length = r.flags.length + 1 := List.length_append
    rw [hlength]
    rcases List.mem_cons.mp hentry with rfl | hentry
    · exact Nat.lt_succ_self _
    · exact Nat.lt_succ_of_lt (hrest.flag_lt entry hentry)

theorem cancel (h : r.Sound) (id : CommandId) : (r.cancel id).2.Sound := by
  unfold Registry.cancel
  split
  · exact h
  · exact h.without id rfl List.length_set

/-- No two commands share a flag. -/
theorem flag_ne (h : r.Sound) {id : CommandId} {flag : Flag} (hflag : r.flag? id = some flag)
    {entry : CommandId × Flag} (hentry : entry ∈ r.entries) (hne : entry.1 ≠ id) : entry.2 ≠ flag := by
  intro heq
  have hmem : (id, flag) ∈ r.entries := (lookup_eq_some_iff h.keys_nodup).mp hflag
  have hsame := List.inj_on_of_nodup_map h.flags_nodup hentry hmem heq
  exact hne (congrArg Prod.fst hsame)

end Sound

theorem Run.sound {acts : List Act} {u : Shared} (h : Run acts u) : u.registry.Sound := by
  induction h with
  | start => exact .empty
  | act _ hstep ih =>
    cases hstep with
    | allocate => exact ⟨ih.keys_nodup, ih.flags_nodup, ih.flag_lt⟩
    | insert _ => exact ih.insert _
    | cancel id => exact ih.cancel id
    | drop _ => exact ih.without _ rfl rfl
    | askRunning _ | askContains _ | askSize => exact ih

/-- What the one cancellation of a number does. -/
structure Cancels (r r' : Registry) (id : CommandId) : Prop where
  cancelled : r' = (r.cancel id).2
  next : r'.next = r.next
  unknown : r.flag? id = none → r' = r
  entries : r'.entries = r.entries.filter fun entry => entry.1 ≠ id
  cleared : ∀ flag, r.flag? id = some flag → r'.flags[flag]? = some false
  spared : ∀ flag, r.flag? id ≠ some flag → r'.flags[flag]? = r.flags[flag]?
  others : ∀ entry ∈ r.entries, entry.1 ≠ id → r'.isRunning ⟨entry.1, entry.2⟩ = r.isRunning ⟨entry.1, entry.2⟩

theorem Sound.cancels {r : Registry} (h : r.Sound) (id : CommandId) : r.Cancels (r.cancel id).2 id := by
  cases hflag : r.flag? id with
  | none =>
    have hcancel : (r.cancel id).2 = r := by simp only [Registry.cancel, hflag]
    rw [hcancel]
    refine ⟨hcancel.symm, rfl, fun _ => rfl, ?_, ?_, fun _ _ => rfl, fun _ _ _ => rfl⟩
    · exact (without_eq_self hflag).symm
    · intro flag hsome
      rw [hflag] at hsome
      cases hsome
  | some flag =>
    have hcancel : (r.cancel id).2 =
        { r with entries := Registry.without id r.entries, flags := r.flags.set flag false } := by
      simp only [Registry.cancel, hflag]
    have hlt : flag < r.flags.length := h.flag_lt (id, flag) ((lookup_eq_some_iff h.keys_nodup).mp hflag)
    rw [hcancel]
    refine ⟨hcancel.symm, rfl, ?_, rfl, ?_, ?_, ?_⟩
    · intro hnone
      rw [hflag] at hnone
      cases hnone
    · intro flag' hsome
      obtain rfl := Option.some.inj (hflag.symm.trans hsome)
      exact List.getElem?_set_self hlt
    · intro flag' hother
      apply List.getElem?_set_ne
      rintro rfl
      exact hother hflag
    · intro entry hentry hne
      have hdistinct := h.flag_ne hflag hentry hne
      unfold isRunning
      rw [List.getElem?_set_ne hdistinct.symm]

/-- A request that tells no number. -/
def Unreadable (payload : Bytes) : Prop :=
  payload.length < CommandId.offset ∨ CommandId.digitsIn payload = [] ∨
    Decimal.maxUnsigned < Decimal.value (CommandId.digitText (CommandId.digitsIn payload))

theorem obey_of_unreadable (r : Registry) {payload : Bytes} (h : Unreadable payload) : r.obey payload = r := by
  have herror : ∃ e, CommandId.ofRequest payload = .error e := by
    rw [CommandId.ofRequest_eq]
    split
    · exact ⟨_, rfl⟩
    · rename_i hlength
      split
      · exact ⟨_, rfl⟩
      · rename_i hdigits
        rw [if_neg (Nat.not_le.mpr ((h.resolve_left hlength).resolve_left hdigits))]
        exact ⟨_, rfl⟩
  obtain ⟨e, herror⟩ := herror
  unfold obey
  rw [herror]

/-- However it is cut, and whatever follows it, a request is served as it was asked. -/
theorem serve_of_request (r : Registry) (id : CommandId) {src : Source} {extra : Bytes}
    (h : src.content = id.request ++ extra) :
    (∃ payload, (readRequest [] src).1 = .ok payload ∧ CommandId.ofRequest payload = .ok id) ∧
      r.serve src = (r.cancel id).2 := by
  have hline : newline ∉ Utf8.encode CommandId.requestStart ++ Utf8.encode id.toText := by
    rw [← Utf8.encode_append]
    apply Utf8.newline_not_mem_encode
    intro hmem
    rcases List.mem_append.mp hmem with hstart | hdigits
    · revert hstart
      decide
    · have hdigit := id.isDigit_toText _ hdigits
      simp [Decimal.IsDigit] at hdigit
  have hrequest : id.request = Utf8.encode CommandId.requestStart ++ Utf8.encode id.toText ++ [newline] := by
    rw [CommandId.request_eq, List.append_assoc]
  have hlength := id.length_request_le
  rw [hrequest] at h hlength
  rw [List.length_append, List.length_singleton] at hlength
  obtain ⟨more, hread, -⟩ := readRequest_of_line hline (by unfold maxRequestBytes; omega) h
  have hdecode : CommandId.ofRequest (Utf8.encode CommandId.requestStart ++ Utf8.encode id.toText ++
      [newline] ++ more) = .ok id := by
    rw [← hrequest]
    exact id.ofRequest_request_append more
  refine ⟨⟨_, hread, hdecode⟩, ?_⟩
  simp only [serve, hread, obey, hdecode]

/-- Whatever number a client takes from its user, and however its request comes in, the one command of
that number is cancelled, if there is one, and no other. A stream that tells no number, or that fails
before a request is read, changes nothing. -/
theorem request_cancels_its_command {φ τ κ δ : Type} [Gateway φ] [Writer τ] [Canceller δ] {acts : List Act}
    {u : Shared} (h : Run acts u) (src : Source) :
    let r := u.registry
    (∀ (c : Client φ τ κ δ) (argument : Text) (n : Nat) (extra : Bytes),
        let id : CommandId := ⟨UInt64.ofNat n⟩
        Decimal.readNat Decimal.maxUnsigned argument = .ok n → src.content = id.request ++ extra →
          (c.terminate argument).canceller = (Canceller.request c.canceller id.request).2 ∧
          (∃ payload, (readRequest [] src).1 = .ok payload ∧ CommandId.ofRequest payload = .ok id) ∧
          id.value.toNat = n ∧ r.Cancels (r.serve src) id) ∧
      (∀ payload, (readRequest [] src).1 = .ok payload →
        payload <+: src.content ∧ payload.length ≤ maxRequestBytes ∧
          (newline ∈ payload ∨ payload.length = maxRequestBytes ∨
            payload = src.content ∧ src.failure? = none) ∧
          (Unreadable payload → r.serve src = r)) ∧
      ∀ e, src.failure? = some e → newline ∉ src.content → src.content.length < maxRequestBytes →
        (readRequest [] src).1 = .error e ∧ r.serve src = r := by
  intro r
  refine ⟨?_, ?_, ?_⟩
  · intro c argument n extra id hn hsrc
    obtain ⟨hread, hserve⟩ := r.serve_of_request id hsrc
    refine ⟨c.canceller_terminate hn, hread, ?_, ?_⟩
    · have hle := Decimal.le_of_readNat hn
      unfold Decimal.maxUnsigned at hle
      exact UInt64.toNat_ofNat_of_lt (by unfold UInt64.size; omega)
    · rw [hserve]
      exact h.sound.cancels id
  · intro payload hread
    obtain ⟨hfirst, hlength, hend⟩ := readRequest_ok (Prod.ext hread rfl) (Nat.zero_le _)
    refine ⟨hfirst, hlength, hend, fun hunreadable => ?_⟩
    simp only [serve, hread]
    exact r.obey_of_unreadable hunreadable
  · intro e hfailure hnewline hlength
    have hread : (readRequest [] src).1 = .error e := by
      rw [readRequest_error_iff, List.nil_append]
      exact ⟨hfailure, hnewline, hlength⟩
    refine ⟨hread, ?_⟩
    simp only [serve, hread]

/-- A request for the newer of two commands that comes in pieces, with a read interrupted. -/
theorem request_cancels_its_command_in_pieces :
    let acts : List Act := [.allocate ⟨1⟩, .insert ⟨⟨1⟩, 0⟩, .allocate ⟨2⟩, .insert ⟨⟨2⟩, 1⟩]
    let u : Shared := ⟨⟨⟨3⟩, [(⟨2⟩, 1), (⟨1⟩, 0)], [true, true]⟩, [], [⟨⟨2⟩, 1⟩, ⟨⟨1⟩, 0⟩]⟩
    let src : Source := [.bytes (Utf8.encode (text "term")), .failure (.described .interrupted []),
      .bytes (Utf8.encode (text "inate 2")), .bytes (Utf8.encode (text "\n9"))]
    let c : Client ScriptedFiles ScriptedWriter ScriptedWriter RequestLog :=
      .start ⟨text "host", 1, 2, ⟨[]⟩⟩ ⟨⟨[]⟩, [], [], [], [], [], [], [], []⟩ [] .accepting .accepting ⟨none, []⟩
    Run acts u ∧ Decimal.readNat Decimal.maxUnsigned (text "+02") = .ok 2 ∧
      (c.terminate (text "+02")).canceller.delivered = [CommandId.request ⟨2⟩] ∧
      src.content = CommandId.request ⟨2⟩ ++ [57] ∧
      (u.registry.serve src).entries = [(⟨1⟩, 0)] ∧
      (u.registry.serve src).flags[1]? = some false ∧
      (u.registry.serve src).isRunning ⟨⟨1⟩, 0⟩ = u.registry.isRunning ⟨⟨1⟩, 0⟩ := by
  intro acts u src c
  have hrun : Run acts u := by
    have hfirst : Run (acts.take 2) ⟨⟨⟨2⟩, [(⟨1⟩, 0)], [true]⟩, [], [⟨⟨1⟩, 0⟩]⟩ :=
      (Run.start.act (.allocate _)).act (.insert List.mem_cons_self)
    exact (hfirst.act (.allocate _)).act (.insert List.mem_cons_self)
  have hn : Decimal.readNat Decimal.maxUnsigned (text "+02") = .ok 2 := rfl
  have hsrc : src.content = CommandId.request ⟨2⟩ ++ [57] := by decide +kernel
  obtain ⟨hserved, -, -⟩ :=
    @request_cancels_its_command ScriptedFiles ScriptedWriter ScriptedWriter RequestLog _ _ _ _ _ hrun src
  obtain ⟨hasked, -, -, hcancels⟩ := hserved c (text "+02") 2 [57] hn hsrc
  have hother := hcancels.others (⟨1⟩, 0) (by decide) (by decide)
  refine ⟨hrun, hn, ?_, hsrc, hcancels.entries, hcancels.cleared 1 rfl, hother⟩
  rw [hasked]
  rfl

end Registry

end FileFerry
