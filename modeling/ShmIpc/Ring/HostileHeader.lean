import ShmIpc.Ring.Fifo

/-!
`RingBufferReceiver.Read` on a header that the peer may have filled with anything. The
call is written as one function here, with the slice expressions of the source as partial
operations: one that reaches outside its slice panics. With nobody interfering the steps
of the reader in the ring model compute the same.
-/

namespace ShmIpc.Ring
open Library

/-- The slice expression `xs[lo:hi]`. -/
def slice {α : Type} (xs : List α) (lo hi : Nat) : Option (List α) :=
  if lo ≤ hi ∧ hi ≤ xs.length then some ((xs.drop lo).take (hi - lo)) else none

structure RingMemory where
  data : List UInt8
  writeOffset : Nat
  readOffset : Nat
  deriving DecidableEq

namespace RingBufferReceiver

/-- The one or two copies of `Read`. -/
def copies (data out : List UInt8) (readIdx chunk toRead : Nat) : Option (List UInt8) := do
  let dst ← slice out 0 chunk
  let src ← slice data readIdx ((readIdx + chunk) % 2 ^ 32)
  let out := copyAt out 0 (src.take dst.length)
  if chunk < toRead % 2 ^ 32 then
    let dst ← slice out chunk out.length
    let src ← slice data 0 ((toRead % 2 ^ 32 + 2 ^ 32 - chunk) % 2 ^ 32)
    pure (copyAt out chunk (src.take dst.length))
  else pure out

/-- `Read`: the ring and the output slice after the call, and what it returns, unless it
panics. -/
def read (capacity : Nat) (ring : RingMemory) (out : List UInt8) :
    Option (RingMemory × List UInt8 × Nat) :=
  let w := ring.writeOffset
  let r := ring.readOffset
  if available w r = 0 then some (ring, out, 0)
  else if available w r > capacity then some (ring, out, 0)
  else
    let toRead := toRead w r out.length
    (copies ring.data out (readIdx capacity r) (chunk capacity r toRead) toRead).map fun out =>
      ({ ring with readOffset := (r + toRead) % 2 ^ 64 }, out, toRead)

theorem slice_eq {α : Type} {xs : List α} {lo hi : Nat} (hle : lo ≤ hi) (hhi : hi ≤ xs.length) :
    slice xs lo hi = some ((xs.drop lo).take (hi - lo)) :=
  if_pos ⟨hle, hhi⟩

theorem toRead_le_available (w r outLen : Nat) :
    toRead w r outLen ≤ available w r ∧ toRead w r outLen ≤ outLen := by
  unfold toRead
  split
  · omega
  · omega

end RingBufferReceiver

open RingBufferReceiver

section Read

variable {cfg : RingConfig} {ring : RingMemory}

theorem receiver_chunk_bounds (r : Nat) {n : Nat} (hn : n ≤ cfg.capacity) :
    chunk cfg.capacity r n ≤ n ∧
      readIdx cfg.capacity r + chunk cfg.capacity r n ≤ cfg.capacity := by
  have hlt := Nat.mod_lt r cfg.pos
  rw [receiver_chunk_eq cfg r n hn, readIdx_eq cfg]
  omega

def piece (cfg : RingConfig) (ring : RingMemory) (n : Nat) : List UInt8 :=
  let r := ring.readOffset
  (ring.data.drop (readIdx cfg.capacity r)).take (chunk cfg.capacity r n) ++
    ring.data.take (n - chunk cfg.capacity r n)

theorem length_piece (hdata : ring.data.length = cfg.capacity) {n : Nat} (hn : n ≤ cfg.capacity) :
    (piece cfg ring n).length = n := by
  obtain ⟨hchunk, hfirst⟩ := receiver_chunk_bounds ring.readOffset hn
  simp only [piece, List.length_append, List.length_take, List.length_drop, hdata]
  omega

theorem copyAt_copyAt (out a b : List UInt8) (h : a.length + b.length ≤ out.length) :
    copyAt (copyAt out 0 a) a.length b = overwrite out 0 (a ++ b) := by
  have hlen : (overwrite out 0 a).length = out.length := length_overwrite _ _ _ (by omega)
  rw [copyAt_eq out 0 a (by omega), copyAt_eq _ _ _ (by omega)]
  simp only [overwrite, List.take_zero, List.nil_append, Nat.zero_add, List.length_append,
    List.take_left, List.append_assoc]
  rw [List.drop_append, List.drop_eq_nil_of_le (by omega), List.nil_append, List.drop_drop]
  congr 3
  omega

theorem copies_eq {data out : List UInt8} {idx chunk n : Nat} (hsmall : data.length < 2 ^ 32)
    (hfirst : idx + chunk ≤ data.length) (hchunk : chunk ≤ n) (hn : n ≤ data.length)
    (hout : n ≤ out.length) :
    copies data out idx chunk n =
      some (overwrite out 0 ((data.drop idx).take chunk ++ data.take (n - chunk))) := by
  have hmod : n % 2 ^ 32 = n := Nat.mod_eq_of_lt (by omega)
  have hend : (idx + chunk) % 2 ^ 32 = idx + chunk := Nat.mod_eq_of_lt (by omega)
  have hrest : (n + 2 ^ 32 - chunk) % 2 ^ 32 = n - chunk := by omega
  have hlen : ((data.drop idx).take chunk).length = chunk := by
    rw [List.length_take, List.length_drop]
    omega
  have hdst : (out.take chunk).length = chunk := by
    rw [List.length_take]
    omega
  unfold copies
  rw [hmod, hend, hrest, slice_eq (Nat.zero_le _) (by omega), slice_eq (by omega) (by omega)]
  simp only [Option.bind_eq_bind, Option.bind_some, List.drop_zero, Nat.sub_zero, hdst,
    Nat.add_sub_cancel_left, List.take_take, Nat.min_self]
  split
  case isTrue hmore =>
    have hkeep : (copyAt out 0 ((data.drop idx).take chunk)).length = out.length := by
      rw [copyAt_eq _ _ _ (by omega)]
      exact length_overwrite _ _ _ (by omega)
    have hsecond : (data.take (n - chunk)).length = n - chunk := by
      rw [List.length_take]
      omega
    have hjoined := copyAt_copyAt out ((data.drop idx).take chunk) (data.take (n - chunk))
      (by omega)
    rw [hlen] at hjoined
    rw [slice_eq (by omega) (by omega), slice_eq (Nat.zero_le _) (by omega), ← hjoined]
    have hroom : ((copyAt out 0 ((data.drop idx).take chunk)).drop chunk).length =
        out.length - chunk := by
      rw [List.length_drop, hkeep]
    simp only [Option.bind_some, List.drop_zero, Nat.sub_zero, hkeep, hroom, List.length_take,
      Nat.min_self]
    rw [List.take_of_length_le (l := data.take (n - chunk)) (by omega)]
    rfl
  case isFalse hlast =>
    have hall : n - chunk = 0 := by omega
    rw [hall, List.take_zero, List.append_nil, copyAt_eq _ _ _ (by omega)]
    rfl

/-- A call that passes both guards does not panic; it fills the first bytes of the output
slice and no others. -/
theorem read_eq (hdata : ring.data.length = cfg.capacity) (out : List UInt8)
    (hsome : available ring.writeOffset ring.readOffset ≠ 0)
    (hfits : available ring.writeOffset ring.readOffset ≤ cfg.capacity) :
    RingBufferReceiver.read cfg.capacity ring out =
      let n := toRead ring.writeOffset ring.readOffset out.length
      some ({ ring with readOffset := (ring.readOffset + n) % 2 ^ 64 },
        overwrite out 0 (piece cfg ring n), n) := by
  obtain ⟨havailable, hlength⟩ :=
    toRead_le_available ring.writeOffset ring.readOffset out.length
  have hn := Nat.le_trans havailable hfits
  obtain ⟨hchunk, hfirst⟩ := receiver_chunk_bounds ring.readOffset hn
  unfold RingBufferReceiver.read
  simp only [if_neg hsome, if_neg (Nat.not_lt.mpr hfits)]
  rw [copies_eq (hdata.symm ▸ cfg.small) (hdata.symm ▸ hfirst) hchunk (hdata.symm ▸ hn) hlength]
  rfl

theorem read_refused (out : List UInt8)
    (h : available ring.writeOffset ring.readOffset = 0 ∨
      cfg.capacity < available ring.writeOffset ring.readOffset) :
    RingBufferReceiver.read cfg.capacity ring out = some (ring, out, 0) := by
  unfold RingBufferReceiver.read
  cases h with
  | inl hempty => exact if_pos hempty
  | inr hlarge => exact (if_neg (by omega)).trans (if_pos hlarge)

end Read

/-- Whatever the two offsets are, `Read` takes no slice outside the ring or the output, it
returns at most what fits in either, moves the read offset by what it returns, and writes
nothing else; with offsets further apart than the capacity it does nothing. -/
theorem read_hostile_header (cfg : RingConfig) (ring : RingMemory) (out : List UInt8)
    (hdata : ring.data.length = cfg.capacity) (hoffset : ring.readOffset < 2 ^ 64) :
    ∃ out' n, RingBufferReceiver.read cfg.capacity ring out =
        some ({ ring with readOffset := (ring.readOffset + n) % 2 ^ 64 }, out', n) ∧
      n ≤ min out.length cfg.capacity ∧
      out'.length = out.length ∧ out'.drop n = out.drop n ∧
      (cfg.capacity < (ring.writeOffset + 2 ^ 64 - ring.readOffset) % 2 ^ 64 →
        n = 0 ∧ RingBufferReceiver.read cfg.capacity ring out = some (ring, out, 0)) := by
  by_cases hguard : available ring.writeOffset ring.readOffset = 0 ∨
      cfg.capacity < available ring.writeOffset ring.readOffset
  · have hread := read_refused out hguard
    refine ⟨out, 0, ?_, Nat.zero_le _, rfl, rfl, fun _ => ⟨rfl, hread⟩⟩
    rw [hread, Nat.add_zero, Nat.mod_eq_of_lt hoffset]
  · rw [not_or] at hguard
    obtain ⟨havailable, hlength⟩ :=
      toRead_le_available ring.writeOffset ring.readOffset out.length
    have hn := Nat.le_trans havailable (Nat.not_lt.mp hguard.2)
    have hpiece := length_piece hdata hn
    refine ⟨_, _, read_eq hdata out hguard.1 (Nat.not_lt.mp hguard.2),
      Nat.le_min.mpr ⟨hlength, hn⟩, length_overwrite _ _ _ (by omega), ?_, ?_⟩
    · rw [overwrite, List.take_zero, List.nil_append, Nat.zero_add, hpiece]
      exact List.drop_left' hpiece
    · intro hlarge
      exact absurd hlarge hguard.2

/-- Offsets that wrap: three bytes are available across the end of the counter, and the
read goes on around the end of the ring. -/
theorem read_hostile_header_wrapping :
    RingBufferReceiver.read 4 ⟨[10, 11, 12, 13], 2, 2 ^ 64 - 1⟩ [0, 0, 0, 0, 0] =
      some (⟨[10, 11, 12, 13], 2, 2⟩, [13, 10, 11, 0, 0], 3) ∧
    ∃ out' n, RingBufferReceiver.read 4 ⟨[10, 11, 12, 13], 2, 2 ^ 64 - 1⟩ [0, 0, 0, 0, 0] =
        some (⟨[10, 11, 12, 13], 2, (2 ^ 64 - 1 + n) % 2 ^ 64⟩, out', n) ∧ n ≤ 4 := by
  refine ⟨by decide, ?_⟩
  obtain ⟨out', n, hread, hle, -⟩ := read_hostile_header ⟨4, by decide, by decide⟩
    ⟨[10, 11, 12, 13], 2, 2 ^ 64 - 1⟩ [0, 0, 0, 0, 0] rfl (by decide)
  exact ⟨out', n, hread, hle⟩

def RingSystem.memory (s : RingSystem) : RingMemory :=
  ⟨s.data, s.writeOffset, s.readOffset⟩

section Steps

variable (cfg : RingConfig) {s : RingSystem}

theorem copyAt_pieces (hdata : s.data.length = cfg.capacity) {out : List UInt8} {n : Nat}
    (hn : n ≤ cfg.capacity) (hout : n ≤ out.length) :
    copyAt (copyAt out 0 ((s.data.drop (readIdx cfg.capacity s.readOffset)).take
        (chunk cfg.capacity s.readOffset n))) (chunk cfg.capacity s.readOffset n)
      (s.data.take (n - chunk cfg.capacity s.readOffset n)) =
    overwrite out 0 (piece cfg s.memory n) := by
  obtain ⟨hchunk, hfirst⟩ := receiver_chunk_bounds s.readOffset hn
  have hlen : ((s.data.drop (readIdx cfg.capacity s.readOffset)).take
      (chunk cfg.capacity s.readOffset n)).length = chunk cfg.capacity s.readOffset n := by
    rw [List.length_take, List.length_drop]
    omega
  have hjoined := copyAt_copyAt out _ (s.data.take (n - chunk cfg.capacity s.readOffset n))
    (by rw [hlen, List.length_take]; omega)
  rw [hlen] at hjoined
  exact hjoined

theorem step_copyFirst {out : List UInt8} {r n : Nat} (hpc : s.reader = .copyFirst out r n)
    (hmod : n % 2 ^ 32 = n) :
    s.step cfg .reader = some { s with
      reader :=
        let out := copyAt out 0
          ((s.data.drop (readIdx cfg.capacity r)).take (chunk cfg.capacity r n))
        if chunk cfg.capacity r n < n then .copySecond out r n else .commit out r n } := by
  rw [RingSystem.step, RingSystem.readerStep, hpc]
  simp only [hmod]

theorem step_copySecond {out : List UInt8} {r n : Nat} (hpc : s.reader = .copySecond out r n)
    (hmod : n % 2 ^ 32 = n) :
    s.step cfg .reader = some { s with
      reader := .commit (copyAt out (chunk cfg.capacity r n)
        (s.data.take (n - chunk cfg.capacity r n))) r n } := by
  rw [RingSystem.step, RingSystem.readerStep, hpc]
  simp only [hmod]

theorem step_commit {out : List UInt8} {r n : Nat} (hpc : s.reader = .commit out r n) :
    s.step cfg .reader = some { s with
      readOffset := (r + n) % 2 ^ 64
      reader := .idle
      returned := s.returned ++ out.take n } := by
  rw [RingSystem.step, RingSystem.readerStep, hpc]

theorem reader_steps_copy (hdata : s.data.length = cfg.capacity) {out : List UInt8} {n : Nat}
    (hn : n ≤ cfg.capacity) (hout : n ≤ out.length)
    (hpc : s.reader = .copyFirst out s.readOffset n) :
    ∃ k, exec (RingSystem.step cfg) s (List.replicate k .reader) =
      some { s with
        readOffset := (s.readOffset + n) % 2 ^ 64
        reader := .idle
        returned := s.returned ++ (overwrite out 0 (piece cfg s.memory n)).take n } := by
  have hcopies := copyAt_pieces cfg hdata hn hout
  have hmod : n % 2 ^ 32 = n := Nat.mod_eq_of_lt (Nat.lt_of_le_of_lt hn cfg.small)
  obtain ⟨hchunk, -⟩ := receiver_chunk_bounds s.readOffset hn
  have hfirst := step_copyFirst cfg hpc hmod
  by_cases hmore : chunk cfg.capacity s.readOffset n < n
  · rw [if_pos hmore] at hfirst
    refine ⟨3, ?_⟩
    rw [List.replicate_succ, exec_cons hfirst, List.replicate_succ,
      exec_cons (step_copySecond cfg rfl hmod), List.replicate_succ,
      exec_cons (step_commit cfg rfl)]
    rw [← hcopies]
    rfl
  · rw [if_neg hmore] at hfirst
    have hall : n - chunk cfg.capacity s.readOffset n = 0 := by omega
    rw [hall, List.take_zero, copyAt, List.take_nil, overwrite_nil] at hcopies
    refine ⟨2, ?_⟩
    rw [List.replicate_succ, exec_cons hfirst, List.replicate_succ, exec_cons (step_commit cfg rfl),
      ← hcopies]
    rfl

theorem step_read (hidle : s.reader = .idle) (out : List UInt8) :
    s.step cfg (.read out) = some { s with reader := .loadWrite out } := by
  rw [RingSystem.step, if_pos hidle]

theorem step_loadWrite {out : List UInt8} (hpc : s.reader = .loadWrite out) :
    s.step cfg .reader = some { s with reader := .loadRead out s.writeOffset } := by
  rw [RingSystem.step, RingSystem.readerStep, hpc]

theorem step_loadRead {out : List UInt8} {w : Nat} (hpc : s.reader = .loadRead out w) :
    s.step cfg .reader =
      if available w s.readOffset = 0 ∨ cfg.capacity < available w s.readOffset then
        some { s with reader := .idle }
      else some { s with
        reader := .copyFirst out s.readOffset (toRead w s.readOffset out.length) } := by
  rw [RingSystem.step, RingSystem.readerStep, hpc]
  by_cases hempty : available w s.readOffset = 0
  · simp only [if_pos hempty, if_pos (Or.inl hempty)]
  · by_cases hlarge : cfg.capacity < available w s.readOffset
    · simp only [if_neg hempty, if_pos hlarge, if_pos (Or.inr hlarge)]
    · simp only [if_neg hempty, if_neg hlarge, if_neg (not_or.mpr ⟨hempty, hlarge⟩)]

theorem reader_steps_read (hidle : s.reader = .idle) (hdata : s.data.length = cfg.capacity)
    (out : List UInt8) {ring' : RingMemory} {out' : List UInt8} {n : Nat}
    (hread : RingBufferReceiver.read cfg.capacity s.memory out = some (ring', out', n)) :
    ∃ k, exec (RingSystem.step cfg) s (.read out :: List.replicate k .reader) =
      some { s with
        readOffset := ring'.readOffset
        reader := .idle
        returned := s.returned ++ out'.take n } := by
  have hloaded := exec_cons (step_read cfg hidle out)
  by_cases hguard : available s.writeOffset s.readOffset = 0 ∨
      cfg.capacity < available s.writeOffset s.readOffset
  · have hlast := step_loadRead cfg
      (s := { s with reader := .loadRead out s.writeOffset }) rfl
    rw [if_pos hguard] at hlast
    have hstays : RingBufferReceiver.read cfg.capacity s.memory out = some (s.memory, out, 0) :=
      read_refused out hguard
    rw [hstays] at hread
    refine ⟨2, ?_⟩
    rw [hloaded, List.replicate_succ, exec_cons (step_loadWrite cfg rfl), List.replicate_succ,
      exec_cons hlast]
    simp only [Option.some.injEq, Prod.mk.injEq] at hread
    obtain ⟨rfl, rfl, rfl⟩ := hread
    rw [List.take_zero, List.append_nil]
    rfl
  · have hnext := step_loadRead cfg
      (s := { s with reader := .loadRead out s.writeOffset }) rfl
    rw [if_neg hguard] at hnext
    rw [not_or, Nat.not_lt] at hguard
    rw [read_eq hdata out hguard.1 hguard.2] at hread
    obtain ⟨havailable, hlength⟩ := toRead_le_available s.writeOffset s.readOffset out.length
    obtain ⟨k, hk⟩ := reader_steps_copy cfg (s := { s with
      reader := .copyFirst out s.readOffset (toRead s.writeOffset s.readOffset out.length) })
      hdata (Nat.le_trans havailable hguard.2) hlength rfl
    refine ⟨k + 2, ?_⟩
    rw [hloaded, List.replicate_succ, exec_cons (step_loadWrite cfg rfl), List.replicate_succ,
      exec_cons hnext, hk]
    simp only [Option.some.injEq, Prod.mk.injEq] at hread
    obtain ⟨rfl, rfl, rfl⟩ := hread
    rfl

end Steps

end ShmIpc.Ring
