import FileFerry.Wire.Marker
import Mathlib.Data.Nat.Find
import Mathlib.Tactic.Common

/-!
# Searching for the end marker in a stream of chunks

`IsFirstMarkerAt` says where the first marker of a byte string begins, without any search.
The cut at the first marker and the scanner that sees only chunks are both measured against
it. The scanner's bounded window loses nothing, because a marker that begins before the
window would have ended before the next chunk.
-/

set_option autoImplicit false

namespace FileFerry

/-- The first marker of `b` begins behind its first `n` bytes. -/
def IsFirstMarkerAt (b : Bytes) (n : Nat) : Prop :=
  endMarker <+: b.drop n ∧ ∀ i < n, ¬ endMarker <+: b.drop i

/-- A byte string with a marker anywhere in it. -/
def HasMarker (b : Bytes) : Prop := endMarker <:+: b

theorem hasMarker_iff_exists_drop {b : Bytes} :
    HasMarker b ↔ ∃ i, endMarker <+: b.drop i := by
  constructor
  · intro h
    obtain ⟨t, hp, hs⟩ := List.infix_iff_prefix_suffix.mp h
    exact ⟨b.length - t.length, (List.suffix_iff_eq_drop.mp hs) ▸ hp⟩
  · rintro ⟨i, hi⟩
    exact List.infix_iff_prefix_suffix.mpr ⟨b.drop i, hi, List.drop_suffix i b⟩

theorem hasMarker_cons_iff {c : UInt8} {b : Bytes} :
    HasMarker (c :: b) ↔ endMarker <+: c :: b ∨ HasMarker b := List.infix_cons_iff

theorem not_hasMarker_nil : ¬ HasMarker [] := by
  intro h
  have := h.length_le
  simp at this

theorem not_hasMarker_of_length_lt {b : Bytes} (h : b.length < endMarker.length) :
    ¬ HasMarker b := fun hm => by
  have := List.IsInfix.length_le hm
  omega

theorem HasMarker.append_right {b : Bytes} (h : HasMarker b) (c : Bytes) : HasMarker (b ++ c) :=
  h.trans (List.prefix_append b c).isInfix

theorem HasMarker.append_left {b : Bytes} (h : HasMarker b) (c : Bytes) : HasMarker (c ++ b) :=
  h.trans (List.suffix_append c b).isInfix

theorem exists_isFirstMarkerAt {b : Bytes} (h : HasMarker b) : ∃ n, IsFirstMarkerAt b n := by
  classical
  have hex := hasMarker_iff_exists_drop.mp h
  exact ⟨Nat.find hex, Nat.find_spec hex, fun i hi => Nat.find_min hex hi⟩

theorem IsFirstMarkerAt.hasMarker {b : Bytes} {n : Nat} (h : IsFirstMarkerAt b n) : HasMarker b :=
  hasMarker_iff_exists_drop.mpr ⟨n, h.1⟩

/-! ## The cut at the first marker -/

theorem cutAtMarker?_eq_none_iff {b : Bytes} : cutAtMarker? b = none ↔ ¬ HasMarker b := by
  induction b with
  | nil => simp [cutAtMarker?, not_hasMarker_nil]
  | cons c b ih =>
    rw [hasMarker_cons_iff, cutAtMarker?]
    split
    · rename_i h
      simp [List.isPrefixOf_iff_prefix.mp h]
    · rename_i h
      rw [List.isPrefixOf_iff_prefix] at h
      simp [ih, h]

instance : DecidablePred HasMarker := fun b =>
  decidable_of_iff ((cutAtMarker? b).isSome = true) (by
    rw [Option.isSome_iff_ne_none, ne_eq, cutAtMarker?_eq_none_iff, not_not])

theorem cutAtMarker?_of_isFirstMarkerAt {b : Bytes} {n : Nat} (h : IsFirstMarkerAt b n) :
    cutAtMarker? b = some (b.take n, b.drop (n + endMarker.length)) := by
  induction b generalizing n with
  | nil => exact absurd h.hasMarker not_hasMarker_nil
  | cons c b ih =>
    rw [cutAtMarker?]
    cases n with
    | zero =>
      have hp : endMarker <+: c :: b := by simpa using h.1
      simp [List.isPrefixOf_iff_prefix.mpr hp]
    | succ n =>
      have hnot : ¬ endMarker <+: c :: b := by simpa using h.2 0 (Nat.succ_pos n)
      have htail : IsFirstMarkerAt b n :=
        ⟨by simpa using h.1, fun i hi => by simpa using h.2 (i + 1) (Nat.succ_lt_succ hi)⟩
      rw [if_neg (by rwa [List.isPrefixOf_iff_prefix]), ih htail,
        show n + 1 + endMarker.length = n + endMarker.length + 1 by omega]
      simp

theorem cutAtMarker?_eq_some_iff {b before after : Bytes} :
    cutAtMarker? b = some (before, after) ↔
      IsFirstMarkerAt b before.length ∧ b = before ++ endMarker ++ after := by
  constructor
  · intro h
    have hm : HasMarker b := by
      by_contra hn
      simp [cutAtMarker?_eq_none_iff.mpr hn] at h
    obtain ⟨n, hn⟩ := exists_isFirstMarkerAt hm
    rw [cutAtMarker?_of_isFirstMarkerAt hn] at h
    obtain ⟨rfl, rfl⟩ : b.take n = before ∧ b.drop (n + endMarker.length) = after := by
      simpa using h
    have hlen : n ≤ b.length := by
      by_contra hlt
      have := hn.1
      simp [List.drop_eq_nil_of_le (Nat.le_of_not_le hlt)] at this
      exact absurd (congrArg List.length this) (by simp)
    have hsplit := List.prefix_iff_eq_append.mp hn.1
    refine ⟨by simpa [Nat.min_eq_left hlen] using hn, ?_⟩
    rw [List.drop_drop] at hsplit
    rw [List.append_assoc, hsplit, List.take_append_drop]
  · rintro ⟨hf, rfl⟩
    rw [cutAtMarker?_of_isFirstMarkerAt hf]
    simp [List.append_assoc]

/-- A marker that lies within `b` is there whatever follows. -/
theorem marker_at_append_iff {b : Bytes} {i : Nat} (h : i + endMarker.length ≤ b.length) (c : Bytes) :
    endMarker <+: (b ++ c).drop i ↔ endMarker <+: b.drop i := by
  rw [List.drop_append_of_le_length (by omega)]
  refine ⟨fun hat => ?_, fun hat => hat.trans (List.prefix_append _ c)⟩
  apply List.prefix_of_prefix_length_le hat (List.prefix_append _ c)
  simp only [List.length_drop]
  omega

theorem cutAtMarker?_append_of_some {b before after : Bytes}
    (h : cutAtMarker? b = some (before, after)) (c : Bytes) :
    cutAtMarker? (b ++ c) = some (before, after ++ c) := by
  obtain ⟨⟨hat, hfirst⟩, hb⟩ := cutAtMarker?_eq_some_iff.mp h
  have hlen := length_of_cutAtMarker? h
  refine cutAtMarker?_eq_some_iff.mpr ⟨⟨?_, ?_⟩, by simp [hb]⟩
  · exact (marker_at_append_iff (by omega) c).mpr hat
  · intro i hi
    rw [marker_at_append_iff (by omega) c]
    exact hfirst i hi

/-- Where no marker begins in `before`, the search goes on behind it. -/
theorem cutAtMarker?_append_of_none_begins {before rest : Bytes}
    (h : ∀ i < before.length, ¬ endMarker <+: (before ++ rest).drop i) :
    cutAtMarker? (before ++ rest) =
      (cutAtMarker? rest).map fun (payload, after) => (before ++ payload, after) := by
  induction before with
  | nil => simp
  | cons c before ih =>
    have hnot : ¬ endMarker <+: c :: (before ++ rest) := by simpa using h 0 (by simp)
    have htail := ih fun i hi => by simpa using h (i + 1) (by simpa using hi)
    rw [List.cons_append, cutAtMarker?, if_neg (by rwa [List.isPrefixOf_iff_prefix]), htail,
      Option.map_map]
    rfl

theorem newline_only_ends_endMarker :
    ∀ i < endMarker.length, endMarker[i]? = some 10 → i = endMarker.length - 1 := by decide

/-- The marker has no border: behind a payload without one it is the first. -/
theorem cutAtMarker?_payload {payload : Bytes} (h : ¬ HasMarker payload) (rest : Bytes) :
    cutAtMarker? (payload ++ endMarker ++ rest) = some (payload, rest) := by
  have hmarker : cutAtMarker? (endMarker ++ rest) = some ([], rest) :=
    cutAtMarker?_eq_some_iff.mpr ⟨⟨by simp, by simp⟩, by simp⟩
  rw [List.append_assoc, cutAtMarker?_append_of_none_begins, hmarker]
  · simp
  · intro i hi hat
    by_cases hin : i + endMarker.length ≤ payload.length
    · rw [marker_at_append_iff hin] at hat
      exact h (hasMarker_iff_exists_drop.mpr ⟨i, hat⟩)
    · -- the newline of the one would lie inside the other, where there is none
      have hlast := List.prefix_iff_getElem?.mp hat (endMarker.length - 1) (by simp)
      rw [List.getElem?_drop, List.getElem?_append_right (by omega),
        List.getElem?_append_left (by omega)] at hlast
      have := newline_only_ends_endMarker _ (by omega) (hlast.trans (by decide))
      omega

/-! ## The scanner -/

@[simp] theorem holdBack_eq : holdBack = 17 := by decide

/-- A window that is as long as it may be holds back enough. -/
theorem eq_nil_or_of_length_window {released window all : Bytes} (hall : released ++ window = all)
    (hlen : window.length = min holdBack all.length) : released = [] ∨ holdBack ≤ window.length := by
  have hsum := congrArg List.length hall
  rw [List.length_append] at hsum
  by_cases hr : released = []
  · exact .inl hr
  · have := List.length_pos_iff.mpr hr
    exact .inr (by omega)

/-- In a byte string without a marker none begins before the last `holdBack` bytes, whatever follows. -/
theorem none_begins_before_window {released window : Bytes} (hn : ¬ HasMarker (released ++ window))
    (hw : released = [] ∨ holdBack ≤ window.length) (rest : Bytes) :
    ∀ i < released.length, ¬ endMarker <+: (released ++ (window ++ rest)).drop i := by
  intro i hi hat
  have hlen : holdBack ≤ window.length := by
    rcases hw with rfl | hw
    · simp at hi
    · exact hw
  rw [← List.append_assoc, marker_at_append_iff] at hat
  · exact hn (hasMarker_iff_exists_drop.mpr ⟨i, hat⟩)
  · simp only [List.length_append, holdBack_eq, length_endMarker] at *
    omega

namespace Scan

def payload : Scan → Bytes
  | pending payload => payload
  | complete payload _ => payload

def isPending : Scan → Bool
  | pending _ => true
  | complete _ _ => false

end Scan

namespace Scanner

theorem feed_of_not_hasMarker {s : Scanner} {chunk : Bytes} (h : ¬ HasMarker (s.held ++ chunk)) :
    ∃ released s', s.feed chunk = (.pending released, s') ∧
      released ++ s'.held = s.held ++ chunk ∧
      s'.held.length = min holdBack (s.held ++ chunk).length := by
  simp only [feed, cutAtMarker?_eq_none_iff.mpr h]
  refine ⟨_, _, rfl, List.take_append_drop _ _, ?_⟩
  simp only [List.length_drop]
  omega

theorem feed_of_cut {s : Scanner} {chunk payload trailing : Bytes}
    (h : cutAtMarker? (s.held ++ chunk) = some (payload, trailing)) :
    s.feed chunk = (.complete payload trailing, empty) := by
  simp only [feed, h]

theorem cut_of_feed_pending {s s' : Scanner} {chunk released rest payload after : Bytes}
    (hfeed : s.feed chunk = (.pending released, s'))
    (hcut : cutAtMarker? (s.held ++ chunk ++ rest) = some (payload, after)) :
    ∃ left, cutAtMarker? (s'.held ++ rest) = some (left, after) := by
  have hn : ¬ HasMarker (s.held ++ chunk) := by
    rw [← cutAtMarker?_eq_none_iff]
    cases hc : cutAtMarker? (s.held ++ chunk) with
    | none => rfl
    | some parts =>
      rw [feed_of_cut hc] at hfeed
      cases hfeed
  obtain ⟨released', s'', hfeed', hsplit, hlen⟩ := feed_of_not_hasMarker hn
  rw [hfeed] at hfeed'
  cases hfeed'
  have hwindow := eq_nil_or_of_length_window hsplit hlen
  rw [← hsplit] at hn
  have hnone := none_begins_before_window hn hwindow rest
  rw [← hsplit, List.append_assoc, cutAtMarker?_append_of_none_begins hnone] at hcut
  obtain ⟨⟨left, after'⟩, hleft, heq⟩ := Option.map_eq_some_iff.mp hcut
  cases heq
  exact ⟨left, hleft⟩

/-- With the marker in its chunk a scanner gives back all that comes after it. -/
theorem trailing_of_feed_complete {s s' : Scanner} {chunk last trailing rest payload after : Bytes}
    (hfeed : s.feed chunk = (.complete last trailing, s'))
    (hcut : cutAtMarker? (s.held ++ chunk ++ rest) = some (payload, after)) : trailing ++ rest = after := by
  cases hc : cutAtMarker? (s.held ++ chunk) with
  | none =>
    obtain ⟨_, _, hfeed', _⟩ := feed_of_not_hasMarker (cutAtMarker?_eq_none_iff.mp hc)
    rw [hfeed] at hfeed'
    cases hfeed'
  | some parts =>
    rw [feed_of_cut hc] at hfeed
    cases hfeed
    rw [cutAtMarker?_append_of_some hc] at hcut
    cases hcut
    rfl

/-- What the scanner of a stream without a marker has come to: everything was released but the
bytes held back. -/
structure Tracks (s : Scanner) (released all : Bytes) : Prop where
  split : released ++ s.held = all
  length_held : s.held.length = min holdBack all.length
  unmarked : ¬ HasMarker all

theorem tracks_empty : empty.Tracks [] [] := ⟨rfl, rfl, not_hasMarker_nil⟩

namespace Tracks

variable {s : Scanner} {released all : Bytes}

theorem released_eq_nil_or (h : s.Tracks released all) : released = [] ∨ holdBack ≤ s.held.length :=
  eq_nil_or_of_length_window h.split h.length_held

/-- The bounded window finds the marker where the whole stream has it. -/
theorem cutAtMarker?_append (h : s.Tracks released all) (chunk : Bytes) :
    cutAtMarker? (all ++ chunk) = (cutAtMarker? (s.held ++ chunk)).map
      fun (payload, trailing) => (released ++ payload, trailing) := by
  have hn := h.unmarked
  rw [← h.split] at hn ⊢
  rw [List.append_assoc]
  exact cutAtMarker?_append_of_none_begins
    (none_begins_before_window hn h.released_eq_nil_or chunk)

theorem held_eq (h : s.Tracks released all) : s.held = all.drop (all.length - min holdBack all.length) := by
  have hlen := congrArg List.length h.split
  have hheld := h.length_held
  rw [List.length_append] at hlen
  rw [show all.length - min holdBack all.length = released.length by omega, ← h.split]
  simp

theorem feed_pending (h : s.Tracks released all) {chunk : Bytes} (hn : ¬ HasMarker (all ++ chunk)) :
    ∃ more s', s.feed chunk = (.pending more, s') ∧ s'.Tracks (released ++ more) (all ++ chunk) := by
  have hwindow : ¬ HasMarker (s.held ++ chunk) := by
    rw [← h.split, List.append_assoc] at hn
    exact fun hm => hn (hm.append_left released)
  obtain ⟨more, s', hfeed, hsplit, hlen⟩ := feed_of_not_hasMarker hwindow
  refine ⟨more, s', hfeed, ⟨?_, ?_, hn⟩⟩
  · rw [List.append_assoc, hsplit, ← List.append_assoc, h.split]
  · have hall := congrArg List.length h.split
    have hheld := h.length_held
    simp only [List.length_append] at *
    omega

theorem feed_complete (h : s.Tracks released all) {chunk : Bytes} {n : Nat}
    (hn : IsFirstMarkerAt (all ++ chunk) n) :
    ∃ last, s.feed chunk = (.complete last ((all ++ chunk).drop (n + endMarker.length)), empty) ∧
      released ++ last = (all ++ chunk).take n := by
  have hcut := cutAtMarker?_of_isFirstMarkerAt hn
  rw [h.cutAtMarker?_append] at hcut
  obtain ⟨⟨last, trailing⟩, hwindow, heq⟩ := Option.map_eq_some_iff.mp hcut
  obtain ⟨hlast, rfl⟩ := Prod.mk.inj heq
  exact ⟨last, feed_of_cut hwindow, hlast⟩

end Tracks

/-- Feeds chunks one after another: what each of them adds, and the scanner behind the last. -/
def feedAll (s : Scanner) : List Bytes → List Scan × Scanner
  | [] => ([], s)
  | chunk :: rest =>
    let (scan, s) := s.feed chunk
    let (scans, s) := s.feedAll rest
    (scan :: scans, s)

theorem feedAll_cons {s s' : Scanner} {chunk : Bytes} {scan : Scan} (h : s.feed chunk = (scan, s'))
    (rest : List Bytes) :
    s.feedAll (chunk :: rest) = (scan :: (s'.feedAll rest).1, (s'.feedAll rest).2) := by
  simp only [feedAll, h]

theorem Tracks.feedAll {s : Scanner} {released all : Bytes} (h : s.Tracks released all)
    {chunks : List Bytes} (hn : ¬ HasMarker (all ++ chunks.flatten)) :
    (∀ scan ∈ (s.feedAll chunks).1, scan.isPending) ∧
      (s.feedAll chunks).2.Tracks (released ++ (s.feedAll chunks).1.flatMap Scan.payload)
        (all ++ chunks.flatten) := by
  induction chunks generalizing s released all with
  | nil => simpa [Scanner.feedAll] using h
  | cons chunk chunks ih =>
    rw [List.flatten_cons, ← List.append_assoc] at hn ⊢
    obtain ⟨more, s', hfeed, hs'⟩ :=
      h.feed_pending fun hm => hn (hm.append_right chunks.flatten)
    obtain ⟨hpending, htracks⟩ := ih hs' hn
    rw [feedAll_cons hfeed]
    constructor
    · intro scan hscan
      rcases List.mem_cons.mp hscan with rfl | hscan
      · rfl
      · exact hpending scan hscan
    · simpa [Scan.payload] using htracks

/-- Searching chunk by chunk is searching in all that has come. As long as there is no marker every
chunk is pending, and what was released and what is held make up the stream. The chunk with
which the first marker is there completes the payload, and leaves a scanner as good as new. -/
theorem feedAll_empty_searches (chunks : List Bytes) (hn : ¬ HasMarker chunks.flatten) :
    let scans := (empty.feedAll chunks).1
    let s := (empty.feedAll chunks).2
    let seen := chunks.flatten
    (∀ scan ∈ scans, scan.isPending) ∧
      scans.flatMap Scan.payload ++ s.held = seen ∧
      s.held = seen.drop (seen.length - min holdBack seen.length) ∧
      ∀ chunk : Bytes, HasMarker (seen ++ chunk) →
        ∃ n last, IsFirstMarkerAt (seen ++ chunk) n ∧
          s.feed chunk = (.complete last ((seen ++ chunk).drop (n + endMarker.length)), empty) ∧
          scans.flatMap Scan.payload ++ last = (seen ++ chunk).take n := by
  intro scans s seen
  have hall : ¬ HasMarker ([] ++ chunks.flatten) := hn
  obtain ⟨hpending, htracks⟩ := tracks_empty.feedAll hall
  rw [List.nil_append, List.nil_append] at htracks
  refine ⟨hpending, htracks.split, htracks.held_eq, ?_⟩
  intro chunk hm
  obtain ⟨n, hn⟩ := exists_isFirstMarkerAt hm
  obtain ⟨last, hfeed, hlast⟩ := htracks.feed_complete hn
  exact ⟨n, last, hn, hfeed, hlast⟩

/-- A marker in three pieces behind something that only looks like one. -/
theorem feedAll_empty_searches_pieces :
    let chunks := [Utf8.encode (text "aFILE_FILE_TRANS"), [], Utf8.encode (text "FER_")]
    let chunk := Utf8.encode (text "END\nls")
    let s := (empty.feedAll chunks).2
    ¬ HasMarker chunks.flatten ∧ HasMarker (chunks.flatten ++ chunk) ∧
      ∃ n last, IsFirstMarkerAt (chunks.flatten ++ chunk) n ∧
        s.feed chunk = (.complete last ((chunks.flatten ++ chunk).drop (n + 18)), empty) := by
  intro chunks chunk s
  have hn : ¬ HasMarker chunks.flatten := by decide
  have hm : HasMarker (chunks.flatten ++ chunk) := by decide
  obtain ⟨n, last, hat, hfeed, _⟩ := (feedAll_empty_searches chunks hn).2.2.2 chunk hm
  exact ⟨hn, hm, n, last, hat, hfeed⟩

end Scanner

end FileFerry
