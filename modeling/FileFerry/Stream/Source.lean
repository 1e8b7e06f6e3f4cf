import FileFerry.Failure.Basic
import FileFerry.Text.Utf8

/-! Byte streams that are read. A source is the list of what its reads will bring; a read takes at
most what is left of the current delivery, and after the list every read finds the end. -/

set_option autoImplicit false

namespace FileFerry

/-- One thing that reading brings: some bytes, in as many reads as it takes, or one failed read. -/
inductive Arrival where
  | bytes (content : Bytes)
  | failure (error : IoError)

abbrev Source := List Arrival

/-- The result of a read; no bytes mean the end of the stream. -/
abbrev ReadResult := Except IoError Bytes

namespace Source

/-- One read of at most `n` bytes. Deliveries without bytes are passed over. -/
def read (n : Nat) : Source → ReadResult × Source
  | [] => (.ok [], [])
  | .failure e :: rest => (.error e, rest)
  | .bytes [] :: rest => read n rest
  | .bytes (b :: bs) :: rest =>
    let left := (b :: bs).drop n
    (.ok ((b :: bs).take n), if left = [] then rest else .bytes left :: rest)

/-- A read that is tried again when it is interrupted. -/
def readAgain (n : Nat) : Source → ReadResult × Source
  | [] => (.ok [], [])
  | .failure e :: rest => if e.isInterrupted then readAgain n rest else (.error e, rest)
  | .bytes [] :: rest => readAgain n rest
  | .bytes (b :: bs) :: rest => read n (.bytes (b :: bs) :: rest)

/-- A bound on the number of reads before the end. -/
def size : Source → Nat
  | [] => 0
  | .failure _ :: rest => size rest + 1
  | .bytes content :: rest => content.length + size rest + 1

theorem size_read_lt {n : Nat} (hn : 0 < n) (b : UInt8) (bs : Bytes) (rest : Source) :
    size (read n (.bytes (b :: bs) :: rest)).2 < size (.bytes (b :: bs) :: rest) := by
  simp only [read]
  split
  · simp only [size, List.length_cons]; omega
  · simp only [size, List.length_drop, List.length_cons]; omega

theorem size_read_add_length_le {n : Nat} {src rest : Source} {chunk : Bytes}
    (h : read n src = (.ok chunk, rest)) : size rest + chunk.length ≤ size src := by
  fun_induction read n src with
  | case1 => cases h; exact Nat.le_refl 0
  | case2 e src => cases h
  | case3 src ih => have := ih h; simp only [size]; omega
  | case4 b bs src left =>
    have hlen : left.length = (b :: bs).length - n := List.length_drop
    cases h
    split
    · rename_i hleft
      rw [hleft] at hlen
      simp only [size, List.length_take, List.length_nil] at *
      omega
    · simp only [size, List.length_take] at *
      omega

theorem size_lt_of_read_error {n : Nat} {src rest : Source} {e : IoError}
    (h : read n src = (.error e, rest)) : size rest < size src := by
  fun_induction read n src with
  | case1 => cases h
  | case2 e src => cases h; simp only [size]; omega
  | case3 src ih => have := ih h; simp only [size]; omega
  | case4 b bs src left => cases h

theorem size_readAgain_lt {n : Nat} (hn : 0 < n) {src rest : Source} {b : UInt8} {bs : Bytes}
    (h : readAgain n src = (.ok (b :: bs), rest)) : size rest < size src := by
  fun_induction readAgain n src with
  | case1 => simp at h
  | case2 e src he ih => have := ih h; simp only [size]; omega
  | case3 => simp at h
  | case4 src ih => have := ih h; simp only [size]; omega
  | case5 c cs src =>
    have := size_read_lt hn c cs src
    rw [h] at this
    exact this

end Source

end FileFerry
