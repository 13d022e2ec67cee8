import ShmIpc.Ring.RingBuffer

/-!
The ring is a lossless queue. Between the two offsets it holds the bytes written and not
yet read, each in the cell of its position. The writer extends this window inside the room
it computed from an old read offset, which can only have become more, and the reader reads
inside the window it computed from an old write offset, which can only have grown; so
neither touches the cells the other is working on. None of this needs the offsets to wrap,
as long as fewer than `2 ^ 64` bytes are written.
-/

namespace ShmIpc.Ring
open Library

section Sizes

variable (cfg : RingConfig)

theorem usage_eq {w r : Nat} (hle : r ≤ w) (hw : w < 2 ^ 64) :
    RingBufferSender.usage w r = w - r := by
  simp only [RingBufferSender.usage]
  omega

theorem toWrite_le {w r : Nat} (n : Nat) (hle : r ≤ w) (hw : w < 2 ^ 64)
    (hroom : w - r < cfg.capacity) :
    RingBufferSender.toWrite cfg.capacity w r n ≤ n ∧
      w + RingBufferSender.toWrite cfg.capacity w r n ≤ r + cfg.capacity := by
  have hsmall := cfg.small
  have havailable : RingBufferSender.available cfg.capacity w r = cfg.capacity - (w - r) := by
    rw [RingBufferSender.available, usage_eq hle hw]
    omega
  simp only [RingBufferSender.toWrite, havailable]
  split
  · omega
  · omega

theorem writeIdx_eq (w : Nat) : RingBufferSender.writeIdx cfg.capacity w = w % cfg.capacity :=
  Nat.mod_eq_of_lt (Nat.lt_trans (Nat.mod_lt w cfg.pos) cfg.small)

theorem sender_chunk_eq (w n : Nat) :
    RingBufferSender.chunk cfg.capacity w n = min n (cfg.capacity - w % cfg.capacity) := by
  have hsmall := cfg.small
  have hlt := Nat.mod_lt w cfg.pos
  have hcontiguous : RingBufferSender.contiguous cfg.capacity w =
      cfg.capacity - w % cfg.capacity := by
    rw [RingBufferSender.contiguous, writeIdx_eq]
    omega
  simp only [RingBufferSender.chunk, hcontiguous]
  split
  · omega
  · omega

theorem available_eq {w r : Nat} (hle : r ≤ w) (hw : w < 2 ^ 64) :
    RingBufferReceiver.available w r = w - r := by
  simp only [RingBufferReceiver.available]
  omega

theorem toRead_le {w r : Nat} (n : Nat) (hle : r ≤ w) (hw : w < 2 ^ 64) :
    RingBufferReceiver.toRead w r n ≤ n ∧ r + RingBufferReceiver.toRead w r n ≤ w := by
  simp only [RingBufferReceiver.toRead, available_eq hle hw]
  split
  · omega
  · omega

theorem readIdx_eq (r : Nat) : RingBufferReceiver.readIdx cfg.capacity r = r % cfg.capacity :=
  Nat.mod_eq_of_lt (Nat.lt_trans (Nat.mod_lt r cfg.pos) cfg.small)

theorem receiver_chunk_eq (r n : Nat) (hn : n ≤ cfg.capacity) :
    RingBufferReceiver.chunk cfg.capacity r n = min n (cfg.capacity - r % cfg.capacity) := by
  have hsmall := cfg.small
  have hlt := Nat.mod_lt r cfg.pos
  have hcontiguous : RingBufferReceiver.contiguous cfg.capacity r =
      cfg.capacity - r % cfg.capacity := by
    rw [RingBufferReceiver.contiguous, readIdx_eq]
    omega
  simp only [RingBufferReceiver.chunk, hcontiguous]
  split
  · omega
  · omega

end Sizes

def WriterPc.src : WriterPc → List UInt8
  | .idle => []
  | .loadWrite src | .loadRead src _ | .copyFirst src _ _ | .copySecond src _ _
  | .commit src _ _ => src

def WriterPc.reserved : WriterPc → Nat
  | .copyFirst _ _ n | .copySecond _ _ n | .commit _ _ n => n
  | _ => 0

def WriterPc.placed (cfg : RingConfig) : WriterPc → Nat
  | .copySecond _ w n => RingBufferSender.chunk cfg.capacity w n
  | .commit _ _ n => n
  | _ => 0

/-- The writer has loaded this write offset, if any. -/
def WriterPc.Loaded (offset : Nat) : WriterPc → Prop
  | .loadRead _ w | .copyFirst _ w _ | .copySecond _ w _ | .commit _ w _ => w = offset
  | _ => True

/-- A second copy is made only for bytes the first one left. -/
def WriterPc.Wraps (cfg : RingConfig) : WriterPc → Prop
  | .copySecond _ w n => RingBufferSender.chunk cfg.capacity w n < n
  | _ => True

structure WriterInv (cfg : RingConfig) (s : RingSystem) : Prop where
  length : s.data.length = cfg.capacity
  loaded : s.writer.Loaded s.writeOffset
  fits : s.writer.reserved ≤ s.writer.src.length
  room : s.writeOffset + s.writer.reserved ≤ s.readOffset + cfg.capacity
  rest : s.written.drop s.writeOffset = s.writer.src
  total : s.writeOffset + s.writer.src.length = s.written.length
  wraps : s.writer.Wraps cfg
  mirrors : Mirrors s.data s.written s.readOffset (s.writeOffset + s.writer.placed cfg)

def ReaderPc.out : ReaderPc → List UInt8
  | .idle => []
  | .loadWrite out | .loadRead out _ | .copyFirst out _ _ | .copySecond out _ _
  | .commit out _ _ => out

def ReaderPc.taking : ReaderPc → Nat
  | .copyFirst _ _ n | .copySecond _ _ n | .commit _ _ n => n
  | _ => 0

def ReaderPc.copied (cfg : RingConfig) : ReaderPc → Nat
  | .copySecond _ r n => RingBufferReceiver.chunk cfg.capacity r n
  | .commit _ _ n => n
  | _ => 0

/-- The reader has loaded this read offset, if any, and between it and the current write
offset an old write offset. -/
def ReaderPc.Loaded (readOffset writeOffset : Nat) : ReaderPc → Prop
  | .loadRead _ w => readOffset ≤ w ∧ w ≤ writeOffset
  | .copyFirst _ r _ | .copySecond _ r _ | .commit _ r _ => r = readOffset
  | _ => True

def ReaderPc.Wraps (cfg : RingConfig) : ReaderPc → Prop
  | .copySecond _ r n => RingBufferReceiver.chunk cfg.capacity r n < n
  | _ => True

structure ReaderInv (cfg : RingConfig) (s : RingSystem) : Prop where
  window : s.readOffset ≤ s.writeOffset
  loaded : s.reader.Loaded s.readOffset s.writeOffset
  inside : s.readOffset + s.reader.taking ≤ s.writeOffset
  fits : s.reader.taking ≤ s.reader.out.length
  wraps : s.reader.Wraps cfg
  got : s.reader.out.take (s.reader.copied cfg) =
    (s.written.drop s.readOffset).take (s.reader.copied cfg)
  returned : s.returned = s.written.take s.readOffset

theorem ReaderPc.copied_le {cfg : RingConfig} {pc : ReaderPc} (h : pc.Wraps cfg) :
    pc.copied cfg ≤ pc.taking := by
  cases pc with
  | idle | loadWrite | loadRead | copyFirst => exact Nat.zero_le _
  | copySecond => exact Nat.le_of_lt h
  | commit => exact Nat.le_refl _

theorem ReaderPc.Loaded.later {readOffset writeOffset writeOffset' : Nat} {pc : ReaderPc}
    (h : pc.Loaded readOffset writeOffset) (hle : writeOffset ≤ writeOffset') :
    pc.Loaded readOffset writeOffset' := by
  cases pc with
  | idle | loadWrite => trivial
  | loadRead => exact ⟨h.1, Nat.le_trans h.2 hle⟩
  | copyFirst | copySecond | commit => exact h

section Frames

variable {cfg : RingConfig} {s s' : RingSystem}

theorem take_drop_append (xs ys : List UInt8) (r n : Nat) (h : r + n ≤ xs.length) :
    ((xs ++ ys).drop r).take n = (xs.drop r).take n := by
  rw [List.drop_append_of_le_length (by omega), List.take_append_of_le_length]
  rw [List.length_drop]
  omega

theorem ReaderInv.frame (h : ReaderInv cfg s) (ys : List UInt8)
    (hread : s'.readOffset = s.readOffset) (hreader : s'.reader = s.reader)
    (hwritten : s'.written = s.written ++ ys) (hoffset : s.writeOffset ≤ s'.writeOffset)
    (hreturned : s'.returned = s.returned) (htotal : s.writeOffset ≤ s.written.length) :
    ReaderInv cfg s' := by
  have hinside := h.inside
  have hcopied := ReaderPc.copied_le h.wraps
  refine ⟨?_, ?_, ?_, ?_, ?_, ?_, ?_⟩
  · rw [hread]
    exact Nat.le_trans h.window hoffset
  · rw [hread, hreader]
    exact h.loaded.later hoffset
  · rw [hread, hreader]
    omega
  · rw [hreader]
    exact h.fits
  · rw [hreader]
    exact h.wraps
  · rw [hread, hreader, hwritten, take_drop_append _ _ _ _ (by omega)]
    exact h.got
  · rw [hread, hwritten, hreturned, List.take_append_of_le_length (by omega)]
    exact h.returned

theorem WriterInv.frame (h : WriterInv cfg s) (hdata : s'.data = s.data)
    (hoffset : s'.writeOffset = s.writeOffset) (hwriter : s'.writer = s.writer)
    (hwritten : s'.written = s.written) (hread : s.readOffset ≤ s'.readOffset) :
    WriterInv cfg s' := by
  have hroom := h.room
  refine ⟨?_, ?_, ?_, ?_, ?_, ?_, ?_, ?_⟩
  · rw [hdata]
    exact h.length
  · rw [hwriter, hoffset]
    exact h.loaded
  · rw [hwriter]
    exact h.fits
  · rw [hwriter, hoffset]
    omega
  · rw [hwritten, hoffset, hwriter]
    exact h.rest
  · rw [hwritten, hoffset, hwriter]
    exact h.total
  · rw [hwriter]
    exact h.wraps
  · rw [hdata, hwritten, hoffset, hwriter]
    exact h.mirrors.mono hread (Nat.le_refl _)

end Frames

section Writer

variable {cfg : RingConfig} {s s' : RingSystem}

/-- What a step of the writer leaves alone. -/
structure WriterStep (s s' : RingSystem) : Prop where
  readOffset : s'.readOffset = s.readOffset
  reader : s'.reader = s.reader
  written : s'.written = s.written
  writeOffset : s.writeOffset ≤ s'.writeOffset
  returned : s'.returned = s.returned

theorem writer_copyFirst (h : WriterInv cfg s) (src : List UInt8) (w n : Nat)
    (hpc : s.writer = .copyFirst src w n) :
    WriterInv cfg { s with
      data := overwrite s.data (RingBufferSender.writeIdx cfg.capacity w)
        (src.take (RingBufferSender.chunk cfg.capacity w n))
      writer := if RingBufferSender.chunk cfg.capacity w n < n then .copySecond src w n
        else .commit src w n } := by
  obtain ⟨hlength, hloaded, hfits, hroom, hrest, htotal, -, hmirrors⟩ := h
  rw [hpc] at hloaded hfits hroom hrest htotal hmirrors
  simp only [WriterPc.Loaded, WriterPc.reserved, WriterPc.src, WriterPc.placed, Nat.add_zero]
    at hloaded hfits hroom hrest htotal hmirrors
  subst hloaded
  have hmod := Nat.mod_lt s.writeOffset cfg.pos
  have hchunk := sender_chunk_eq cfg s.writeOffset n
  generalize hdef : RingBufferSender.chunk cfg.capacity s.writeOffset n = chunk at hchunk ⊢
  have hpiece : s.writeOffset % s.data.length + chunk ≤ s.data.length := by
    rw [hlength]
    omega
  have hlen : ((s.written.drop s.writeOffset).take chunk).length = chunk := by
    rw [List.length_take, List.length_drop]
    omega
  have hdata : overwrite s.data (RingBufferSender.writeIdx cfg.capacity s.writeOffset)
      (src.take chunk) = overwrite s.data (s.writeOffset % s.data.length)
        ((s.written.drop s.writeOffset).take chunk) := by
    rw [writeIdx_eq, hlength, hrest]
  have hextended := hmirrors.extend chunk (by omega) hpiece (by omega)
  have hlength' := length_overwrite s.data (s.writeOffset % s.data.length)
    ((s.written.drop s.writeOffset).take chunk) (by rw [hlen]; exact hpiece)
  rw [← hdata] at hextended hlength'
  rw [hlength] at hlength'
  split
  · next hsecond =>
      refine ⟨hlength', rfl, hfits, hroom, hrest, htotal, ?_, ?_⟩
      · simp only [WriterPc.Wraps, hdef]
        exact hsecond
      · simp only [WriterPc.placed, hdef]
        exact hextended
  · next hlast =>
      have hall : chunk = n := by omega
      rw [hall] at hextended hlength' ⊢
      exact ⟨hlength', rfl, hfits, hroom, hrest, htotal, trivial, hextended⟩

theorem writer_copySecond (h : WriterInv cfg s) (hwindow : s.readOffset ≤ s.writeOffset)
    (src : List UInt8) (w n : Nat) (hpc : s.writer = .copySecond src w n) :
    WriterInv cfg { s with
      data := overwrite s.data 0 ((src.drop (RingBufferSender.chunk cfg.capacity w n)).take
        (n - RingBufferSender.chunk cfg.capacity w n))
      writer := .commit src w n } := by
  obtain ⟨hlength, hloaded, hfits, hroom, hrest, htotal, hwraps, hmirrors⟩ := h
  rw [hpc] at hloaded hfits hroom hrest htotal hwraps hmirrors
  simp only [WriterPc.Loaded, WriterPc.reserved, WriterPc.src, WriterPc.Wraps, WriterPc.placed]
    at hloaded hfits hroom hrest htotal hwraps hmirrors
  subst hloaded
  have hmod := Nat.mod_lt s.writeOffset cfg.pos
  have hchunk := sender_chunk_eq cfg s.writeOffset n
  generalize RingBufferSender.chunk cfg.capacity s.writeOffset n = chunk
    at hwraps hchunk hmirrors ⊢
  have hend : chunk = cfg.capacity - s.writeOffset % cfg.capacity := by omega
  have hcell : (s.writeOffset + chunk) % s.data.length = 0 := by
    rw [hlength, hend]
    exact add_mod_wrap s.writeOffset cfg.capacity cfg.pos
  have hdata : overwrite s.data 0 ((src.drop chunk).take (n - chunk)) =
      overwrite s.data ((s.writeOffset + chunk) % s.data.length)
        ((s.written.drop (s.writeOffset + chunk)).take (n - chunk)) := by
    rw [hcell, ← hrest, List.drop_drop]
  have hextended := hmirrors.extend (n - chunk) (by omega) (by omega) (by omega)
  have hsum : s.writeOffset + chunk + (n - chunk) = s.writeOffset + n := by omega
  rw [← hdata, hsum] at hextended
  refine ⟨?_, rfl, hfits, hroom, hrest, htotal, trivial, hextended⟩
  rw [hdata, length_overwrite, hlength]
  rw [List.length_take, List.length_drop]
  omega

theorem writer_commit (h : WriterInv cfg s) (hbytes : s.written.length < 2 ^ 64)
    (src : List UInt8) (w n : Nat) (hpc : s.writer = .commit src w n) :
    WriterInv cfg { s with
      writeOffset := (w + n) % 2 ^ 64
      writer := .loadWrite (src.drop n) } ∧ (w + n) % 2 ^ 64 = s.writeOffset + n := by
  obtain ⟨hlength, hloaded, hfits, hroom, hrest, htotal, -, hmirrors⟩ := h
  rw [hpc] at hloaded hfits hroom hrest htotal hmirrors
  simp only [WriterPc.Loaded, WriterPc.reserved, WriterPc.src, WriterPc.placed]
    at hloaded hfits hroom hrest htotal hmirrors
  subst hloaded
  have hnowrap : (s.writeOffset + n) % 2 ^ 64 = s.writeOffset + n := Nat.mod_eq_of_lt (by omega)
  rw [hnowrap]
  refine ⟨⟨hlength, trivial, Nat.zero_le _, hroom, ?_, ?_, trivial, hmirrors⟩, rfl⟩
  · simp only [WriterPc.src]
    rw [← hrest, List.drop_drop]
  · simp only [WriterPc.src, List.length_drop]
    omega

theorem writer_reserve (h : WriterInv cfg s) (src : List UInt8) (w n : Nat)
    (hpc : s.writer = .loadRead src w) (hfits : n ≤ src.length)
    (hroom : s.writeOffset + n ≤ s.readOffset + cfg.capacity) :
    WriterInv cfg { s with writer := .copyFirst src w n } := by
  obtain ⟨hlength, hloaded, -, -, hrest, htotal, -, hmirrors⟩ := h
  rw [hpc] at hloaded hrest htotal hmirrors
  exact ⟨hlength, hloaded, hfits, hroom, hrest, htotal, trivial, hmirrors⟩

theorem writer_loadRead (h : WriterInv cfg s) (hwindow : s.readOffset ≤ s.writeOffset)
    (hbytes : s.written.length < 2 ^ 64) (src : List UInt8) (w : Nat)
    (hpc : s.writer = .loadRead src w)
    (hroom : RingBufferSender.usage w s.readOffset < cfg.capacity) :
    WriterInv cfg { s with
      writer := .copyFirst src w
        (RingBufferSender.toWrite cfg.capacity w s.readOffset src.length) } := by
  have hw : w = s.writeOffset := by
    have hloaded := h.loaded
    rw [hpc] at hloaded
    exact hloaded
  subst hw
  have htotal := h.total
  have hlt : s.writeOffset < 2 ^ 64 := by omega
  rw [usage_eq hwindow hlt] at hroom
  have hsizes := toWrite_le cfg src.length hwindow hlt hroom
  exact writer_reserve h src _ _ hpc hsizes.1 hsizes.2

theorem writerStep_inv (h : WriterInv cfg s) (hwindow : s.readOffset ≤ s.writeOffset)
    (hbytes : s.written.length < 2 ^ 64) (hstep : s.writerStep cfg = some s') :
    WriterInv cfg s' ∧ WriterStep s s' := by
  cases hpc : s.writer with
  | idle =>
    simp only [RingSystem.writerStep, hpc] at hstep
    cases hstep
  | loadWrite src =>
    simp only [RingSystem.writerStep, hpc, Option.some.injEq] at hstep
    subst hstep
    refine ⟨?_, rfl, rfl, rfl, Nat.le_refl _, rfl⟩
    obtain ⟨hlength, -, -, hroom, hrest, htotal, -, hmirrors⟩ := h
    rw [hpc] at hroom hrest htotal hmirrors
    split
    · exact ⟨hlength, rfl, Nat.zero_le _, hroom, hrest, htotal, trivial, hmirrors⟩
    · next hempty =>
        have hnil : src = [] := List.eq_nil_of_length_eq_zero (by omega)
        subst hnil
        exact ⟨hlength, trivial, Nat.zero_le _, hroom, hrest, htotal, trivial, hmirrors⟩
  | loadRead src w =>
    simp only [RingSystem.writerStep, hpc] at hstep
    split at hstep
    · cases hstep
      refine ⟨?_, rfl, rfl, rfl, Nat.le_refl _, rfl⟩
      obtain ⟨hlength, -, -, hroom, hrest, htotal, -, hmirrors⟩ := h
      rw [hpc] at hroom hrest htotal hmirrors
      exact ⟨hlength, trivial, Nat.zero_le _, hroom, hrest, htotal, trivial, hmirrors⟩
    · next hroom =>
        cases hstep
        exact ⟨writer_loadRead h hwindow hbytes src w hpc (Nat.lt_of_not_le hroom),
          rfl, rfl, rfl, Nat.le_refl _, rfl⟩
  | copyFirst src w n =>
    simp only [RingSystem.writerStep, hpc, Option.some.injEq] at hstep
    subst hstep
    exact ⟨writer_copyFirst h src w n hpc, rfl, rfl, rfl, Nat.le_refl _, rfl⟩
  | copySecond src w n =>
    simp only [RingSystem.writerStep, hpc, Option.some.injEq] at hstep
    subst hstep
    exact ⟨writer_copySecond h hwindow src w n hpc, rfl, rfl, rfl, Nat.le_refl _, rfl⟩
  | commit src w n =>
    simp only [RingSystem.writerStep, hpc, Option.some.injEq] at hstep
    subst hstep
    obtain ⟨hinv, hoffset⟩ := writer_commit h hbytes src w n hpc
    refine ⟨hinv, rfl, rfl, rfl, ?_, rfl⟩
    change s.writeOffset ≤ (w + n) % 2 ^ 64
    omega

end Writer

section Reader

variable {cfg : RingConfig} {s s' : RingSystem}

/-- What a step of the reader leaves alone. -/
structure ReaderStep (s s' : RingSystem) : Prop where
  data : s'.data = s.data
  writeOffset : s'.writeOffset = s.writeOffset
  writer : s'.writer = s.writer
  written : s'.written = s.written
  readOffset : s.readOffset ≤ s'.readOffset

theorem firstCopy (hw : WriterInv cfg s) (out : List UInt8) (chunk : Nat)
    (hpiece : s.readOffset % cfg.capacity + chunk ≤ cfg.capacity)
    (hinside : s.readOffset + chunk ≤ s.writeOffset) (hfits : chunk ≤ out.length) :
    (copyAt out 0
        ((s.data.drop (s.readOffset % cfg.capacity)).take chunk)).take chunk =
      (s.written.drop s.readOffset).take chunk ∧
    (copyAt out 0
      ((s.data.drop (s.readOffset % cfg.capacity)).take chunk)).length = out.length := by
  have htotal := hw.total
  have hcells := hw.mirrors.piece s.readOffset chunk (Nat.le_refl _) (by omega) (by
    rw [hw.length]
    exact hpiece)
  rw [hw.length] at hcells
  have hlen : ((s.written.drop s.readOffset).take chunk).length = chunk := by
    rw [List.length_take, List.length_drop]
    omega
  rw [hcells, copyAt_eq _ _ _ (by omega)]
  have htake := take_overwrite out 0 ((s.written.drop s.readOffset).take chunk) (Nat.zero_le _)
  rw [hlen, Nat.zero_add] at htake
  exact ⟨htake, length_overwrite _ _ _ (by omega)⟩

theorem secondCopy (hw : WriterInv cfg s) (out : List UInt8) (chunk n : Nat)
    (hend : chunk = cfg.capacity - s.readOffset % cfg.capacity) (hlt : chunk < n)
    (hn : n ≤ cfg.capacity) (hinside : s.readOffset + n ≤ s.writeOffset) (hfits : n ≤ out.length)
    (hgot : out.take chunk = (s.written.drop s.readOffset).take chunk) :
    (copyAt out chunk (s.data.take (n - chunk))).take n =
      (s.written.drop s.readOffset).take n ∧
    (copyAt out chunk (s.data.take (n - chunk))).length = out.length := by
  have hlength := hw.length
  have hcell : (s.readOffset + chunk) % s.data.length = 0 := by
    rw [hlength, hend]
    exact add_mod_wrap s.readOffset cfg.capacity cfg.pos
  have hcells := hw.mirrors.piece (s.readOffset + chunk) (n - chunk) (by omega) (by omega)
    (by omega)
  rw [hcell, List.drop_zero] at hcells
  have hlen : (s.data.take (n - chunk)).length = n - chunk := by
    rw [List.length_take]
    omega
  have hsum : chunk + (n - chunk) = n := by omega
  rw [copyAt_eq _ _ _ (by omega)]
  have htake := take_overwrite out chunk (s.data.take (n - chunk)) (by omega)
  rw [hlen, hsum] at htake
  refine ⟨?_, length_overwrite _ _ _ (by omega)⟩
  rw [htake, hgot, hcells, ← List.drop_drop, ← List.take_add, hsum]

theorem reader_copyFirst (h : ReaderInv cfg s) (hw : WriterInv cfg s) (out : List UInt8)
    (r n : Nat) (hpc : s.reader = .copyFirst out r n) (out' : List UInt8)
    (hout : out' = copyAt out 0
      ((s.data.drop (RingBufferReceiver.readIdx cfg.capacity r)).take
        (RingBufferReceiver.chunk cfg.capacity r n))) :
    ReaderInv cfg { s with
      reader := if RingBufferReceiver.chunk cfg.capacity r n < n % 2 ^ 32 then
        .copySecond out' r n else .commit out' r n } := by
  obtain ⟨hwindow, hloaded, hinside, hfits, -, -, hreturned⟩ := h
  rw [hpc] at hloaded hinside hfits
  simp only [ReaderPc.Loaded, ReaderPc.taking, ReaderPc.out] at hloaded hinside hfits
  subst hloaded
  have hsmall := cfg.small
  have hroom := hw.room
  have hmod := Nat.mod_lt s.readOffset cfg.pos
  have hchunk := receiver_chunk_eq cfg s.readOffset n (by omega)
  have hn : n % 2 ^ 32 = n := Nat.mod_eq_of_lt (by omega)
  have hcopy := firstCopy hw out (RingBufferReceiver.chunk cfg.capacity s.readOffset n)
    (by omega) (by omega) (by omega)
  rw [← readIdx_eq cfg, ← hout] at hcopy
  have hfits' : n ≤ out'.length := by
    rw [hcopy.2]
    exact hfits
  rw [hn]
  split
  · next hsecond =>
      exact ⟨hwindow, rfl, hinside, hfits', hsecond, hcopy.1, hreturned⟩
  · next hlast =>
      have hall : RingBufferReceiver.chunk cfg.capacity s.readOffset n = n := by omega
      rw [hall] at hcopy
      exact ⟨hwindow, rfl, hinside, hfits', trivial, hcopy.1, hreturned⟩

theorem reader_copySecond (h : ReaderInv cfg s) (hw : WriterInv cfg s) (out : List UInt8)
    (r n : Nat) (hpc : s.reader = .copySecond out r n) (out' : List UInt8)
    (hout : out' = copyAt out (RingBufferReceiver.chunk cfg.capacity r n)
      (s.data.take (n % 2 ^ 32 - RingBufferReceiver.chunk cfg.capacity r n))) :
    ReaderInv cfg { s with reader := .commit out' r n } := by
  obtain ⟨hwindow, hloaded, hinside, hfits, hwraps, hgot, hreturned⟩ := h
  rw [hpc] at hloaded hinside hfits hwraps hgot
  simp only [ReaderPc.Loaded, ReaderPc.taking, ReaderPc.out, ReaderPc.Wraps, ReaderPc.copied]
    at hloaded hinside hfits hwraps hgot
  subst hloaded
  have hsmall := cfg.small
  have hroom := hw.room
  have hmod := Nat.mod_lt s.readOffset cfg.pos
  have hchunk := receiver_chunk_eq cfg s.readOffset n (by omega)
  have hn : n % 2 ^ 32 = n := Nat.mod_eq_of_lt (by omega)
  have hcopy := secondCopy hw out (RingBufferReceiver.chunk cfg.capacity s.readOffset n) n
    (by omega) hwraps (by omega) hinside hfits hgot
  rw [hn] at hout
  rw [← hout] at hcopy
  have hfits' : n ≤ out'.length := by
    rw [hcopy.2]
    exact hfits
  exact ⟨hwindow, rfl, hinside, hfits', trivial, hcopy.1, hreturned⟩

theorem reader_commit (h : ReaderInv cfg s) (hw : WriterInv cfg s)
    (hbytes : s.written.length < 2 ^ 64) (out : List UInt8) (r n : Nat)
    (hpc : s.reader = .commit out r n) :
    ReaderInv cfg { s with
      readOffset := (r + n) % 2 ^ 64
      reader := .idle
      returned := s.returned ++ out.take n } ∧ (r + n) % 2 ^ 64 = s.readOffset + n := by
  obtain ⟨hwindow, hloaded, hinside, hfits, -, hgot, hreturned⟩ := h
  rw [hpc] at hloaded hinside hfits hgot
  simp only [ReaderPc.Loaded, ReaderPc.taking, ReaderPc.out, ReaderPc.copied]
    at hloaded hinside hfits hgot
  subst hloaded
  have htotal := hw.total
  have hnowrap : (s.readOffset + n) % 2 ^ 64 = s.readOffset + n := Nat.mod_eq_of_lt (by omega)
  rw [hnowrap]
  refine ⟨⟨hinside, trivial, hinside, Nat.zero_le _, trivial, rfl, ?_⟩, rfl⟩
  rw [List.take_add, ← hreturned, ← hgot]

theorem reader_reserve (h : ReaderInv cfg s) (out : List UInt8) (n : Nat)
    (hfits : n ≤ out.length) (hinside : s.readOffset + n ≤ s.writeOffset) :
    ReaderInv cfg { s with reader := .copyFirst out s.readOffset n } :=
  ⟨h.window, rfl, hinside, hfits, trivial, rfl, h.returned⟩

theorem readerStep_inv (h : ReaderInv cfg s) (hw : WriterInv cfg s)
    (hbytes : s.written.length < 2 ^ 64) (hstep : s.readerStep cfg = some s') :
    ReaderInv cfg s' ∧ ReaderStep s s' := by
  have hidle : ReaderInv cfg { s with reader := .idle } :=
    ⟨h.window, trivial, h.window, Nat.zero_le _, trivial, rfl, h.returned⟩
  cases hpc : s.reader with
  | idle =>
    simp only [RingSystem.readerStep, hpc] at hstep
    cases hstep
  | loadWrite out =>
    simp only [RingSystem.readerStep, hpc, Option.some.injEq] at hstep
    subst hstep
    exact ⟨⟨h.window, ⟨h.window, Nat.le_refl _⟩, h.window, Nat.zero_le _, trivial, rfl,
      h.returned⟩, rfl, rfl, rfl, rfl, Nat.le_refl _⟩
  | loadRead out w =>
    have hloaded := h.loaded
    rw [hpc] at hloaded
    have htotal := hw.total
    simp only [RingSystem.readerStep, hpc] at hstep
    split at hstep
    · cases hstep
      exact ⟨hidle, rfl, rfl, rfl, rfl, Nat.le_refl _⟩
    · split at hstep
      · cases hstep
        exact ⟨hidle, rfl, rfl, rfl, rfl, Nat.le_refl _⟩
      · cases hstep
        have hlt : w < 2 ^ 64 := Nat.lt_of_le_of_lt hloaded.2 (by omega)
        have hsizes := toRead_le out.length hloaded.1 hlt
        exact ⟨reader_reserve h out _ hsizes.1 (Nat.le_trans hsizes.2 hloaded.2),
          rfl, rfl, rfl, rfl, Nat.le_refl _⟩
  | copyFirst out r n =>
    simp only [RingSystem.readerStep, hpc, Option.some.injEq] at hstep
    subst hstep
    exact ⟨reader_copyFirst h hw out r n hpc _ rfl, rfl, rfl, rfl, rfl, Nat.le_refl _⟩
  | copySecond out r n =>
    simp only [RingSystem.readerStep, hpc, Option.some.injEq] at hstep
    subst hstep
    exact ⟨reader_copySecond h hw out r n hpc _ rfl, rfl, rfl, rfl, rfl, Nat.le_refl _⟩
  | commit out r n =>
    simp only [RingSystem.readerStep, hpc, Option.some.injEq] at hstep
    subst hstep
    obtain ⟨hinv, hoffset⟩ := reader_commit h hw hbytes out r n hpc
    refine ⟨hinv, rfl, rfl, rfl, rfl, ?_⟩
    change s.readOffset ≤ (r + n) % 2 ^ 64
    omega

end Reader

section Runs

variable {cfg : RingConfig} {s s' : RingSystem}

theorem written_mono {a : RingAction} (hstep : s.step cfg a = some s') :
    s.written.length ≤ s'.written.length := by
  cases a with
  | write src =>
    simp only [RingSystem.step] at hstep
    split at hstep
    · cases hstep
      exact List.length_append ▸ Nat.le_add_right _ _
    · cases hstep
  | read out =>
    simp only [RingSystem.step] at hstep
    split at hstep
    · cases hstep
      exact Nat.le_refl _
    · cases hstep
  | writer =>
    simp only [RingSystem.step, RingSystem.writerStep] at hstep
    repeat' split at hstep
    all_goals cases hstep
    all_goals exact Nat.le_refl _
  | reader =>
    simp only [RingSystem.step, RingSystem.readerStep] at hstep
    repeat' split at hstep
    all_goals cases hstep
    all_goals exact Nat.le_refl _

theorem inv_write (h : WriterInv cfg s) (hr : ReaderInv cfg s) (src : List UInt8)
    (hidle : s.writer = .idle) :
    WriterInv cfg { s with writer := .loadWrite src, written := s.written ++ src } ∧
      ReaderInv cfg { s with writer := .loadWrite src, written := s.written ++ src } := by
  obtain ⟨hlength, -, -, hroom, hrest, htotal, -, hmirrors⟩ := h
  rw [hidle] at hroom hrest htotal hmirrors
  have hall : s.writeOffset = s.written.length := htotal
  refine ⟨⟨hlength, trivial, Nat.zero_le _, hroom, ?_, ?_, trivial, ?_⟩, ?_⟩
  · rw [hall, List.drop_left]
    rfl
  · rw [List.length_append, ← hall]
    rfl
  · exact hmirrors.append src (Nat.le_of_eq hall)
  · exact hr.frame src rfl rfl rfl (Nat.le_refl _) rfl (Nat.le_of_eq hall)

theorem inv_read (h : WriterInv cfg s) (hr : ReaderInv cfg s) (out : List UInt8) :
    WriterInv cfg { s with reader := .loadWrite out } ∧
      ReaderInv cfg { s with reader := .loadWrite out } :=
  ⟨h.frame rfl rfl rfl rfl (Nat.le_refl _),
    ⟨hr.window, trivial, hr.window, Nat.zero_le _, trivial, rfl, hr.returned⟩⟩

theorem inv_step (h : WriterInv cfg s) (hr : ReaderInv cfg s)
    (hbytes : s.written.length < 2 ^ 64) (a : RingAction) (hstep : s.step cfg a = some s') :
    WriterInv cfg s' ∧ ReaderInv cfg s' := by
  cases a with
  | write src =>
    simp only [RingSystem.step] at hstep
    split at hstep
    · next hidle =>
        cases hstep
        exact inv_write h hr src hidle.1
    · cases hstep
  | read out =>
    simp only [RingSystem.step] at hstep
    split at hstep
    · cases hstep
      exact inv_read h hr out
    · cases hstep
  | writer =>
    obtain ⟨hinv, hkept⟩ := writerStep_inv h hr.window hbytes hstep
    refine ⟨hinv, hr.frame [] hkept.readOffset hkept.reader ?_ hkept.writeOffset hkept.returned ?_⟩
    · rw [hkept.written, List.append_nil]
    · exact Nat.le_trans (Nat.le_add_right _ _) (Nat.le_of_eq h.total)
  | reader =>
    obtain ⟨hinv, hkept⟩ := readerStep_inv hr h hbytes hstep
    exact ⟨h.frame hkept.data hkept.writeOffset hkept.writer hkept.written hkept.readOffset,
      hinv⟩

theorem inv_start (data : Vector UInt8 cfg.capacity) :
    WriterInv cfg (.start cfg data) ∧ ReaderInv cfg (.start cfg data) := by
  refine ⟨⟨data.length_toList, trivial, Nat.le_refl _, Nat.zero_le _, rfl, rfl, trivial, ?_⟩,
    ⟨Nat.le_refl _, trivial, Nat.le_refl _, Nat.le_refl _, trivial, rfl, rfl⟩⟩
  intro k _ hk
  exact absurd hk (Nat.not_lt_zero k)

theorem inv_reachable {guard : RingSystem → RingAction → Prop} {data : Vector UInt8 cfg.capacity}
    (hs : Reachable (RingSystem.step cfg) guard (.start cfg data) s) :
    s.written.length < 2 ^ 64 → WriterInv cfg s ∧ ReaderInv cfg s := by
  induction hs with
  | start => exact fun _ => inv_start data
  | step s s' a _ _ hstep ih =>
    intro hbytes
    have hbytes' := Nat.lt_of_le_of_lt (written_mono hstep) hbytes
    obtain ⟨hw, hr⟩ := ih hbytes'
    exact inv_step hw hr hbytes' a hstep

/-- The ring neither overflows nor loses, repeats or reorders a byte. -/
structure Lossless (cfg : RingConfig) (s : RingSystem) : Prop where
  ordered : s.readOffset ≤ s.writeOffset
  bounded : s.writeOffset - s.readOffset ≤ cfg.capacity
  fifo : s.returned <+: s.written
  complete : s.writeOffset = s.readOffset → s.writer = .idle → s.returned = s.written

/-- Whatever is written and read, in pieces of any size and in any interleaving, the ring is
lossless as long as fewer than `2 ^ 64` bytes are written. -/
theorem ring_lossless (cfg : RingConfig) (data : Vector UInt8 cfg.capacity) (s : RingSystem)
    (hs : Reachable (RingSystem.step cfg) (fun _ _ => True) (.start cfg data) s)
    (hbytes : s.written.length < 2 ^ 64) : Lossless cfg s := by
  obtain ⟨hw, hr⟩ := inv_reachable hs hbytes
  have hroom := hw.room
  refine ⟨hr.window, by omega, ?_, ?_⟩
  · rw [hr.returned]
    exact List.take_prefix _ _
  · intro hempty hidle
    have htotal := hw.total
    rw [hidle] at htotal
    have hall : s.written.length ≤ s.readOffset := by
      rw [← hempty]
      exact Nat.le_of_eq htotal.symm
    rw [hr.returned, List.take_of_length_le hall]

def threeCells : RingConfig := ⟨3, by decide, by decide⟩

/-- Five bytes are written in one call while two calls read them: the writer fills the
ring, waits, and goes on around the end once the first call has read two bytes. -/
def wrappingRun : List RingAction :=
  [.write [1, 2, 3, 4, 5], .writer, .writer, .writer, .writer,
    .read [0, 0], .reader, .reader, .reader, .writer, .writer, .reader,
    .writer, .writer, .writer, .writer, .read [0, 0, 0, 0], .reader, .reader, .reader, .reader,
    .reader, .writer]

theorem ring_lossless_wrapping :
    ∃ s : RingSystem,
      Reachable (RingSystem.step threeCells) (fun _ _ => True)
        (.start threeCells (.replicate 3 0)) s ∧
        (s.writer = .idle ∧ s.written = [1, 2, 3, 4, 5] ∧ s.returned = [1, 2, 3, 4, 5]) ∧
        Lossless threeCells s := by
  obtain ⟨s, hreach, htest⟩ := exists_reachable_of_exec (RingSystem.step threeCells)
    (fun _ _ => True) (.start threeCells (.replicate 3 0)) (fun _ _ => true)
    (fun _ _ _ => trivial) wrappingRun
    (fun s => decide (s.writer = .idle ∧ s.written = [1, 2, 3, 4, 5] ∧
      s.returned = [1, 2, 3, 4, 5])) (by decide)
  have hfinal := of_decide_eq_true htest
  have hbytes : s.written.length < 2 ^ 64 := by
    rw [hfinal.2.1]
    decide
  exact ⟨s, hreach, hfinal, ring_lossless threeCells _ s hreach hbytes⟩

end Runs

end ShmIpc.Ring
