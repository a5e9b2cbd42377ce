import Castaway.Bluetooth.Codec
import Castaway.Lib.BitStream

/-!
# The LATM multiplex

An AAC packet is an `AudioMuxElement`: a configuration, or a bit that says that
the last one still holds, then the length of the access unit, then the access
unit.  Nothing in it is aligned, so the header is read bit by bit.
-/

namespace Castaway.Bluetooth

/-! ## The reader -/

structure BitReader where
  bytes : Bytes
  bit : ℕ := 0
  deriving DecidableEq

abbrev Reading := StateT BitReader (Except AudioError)

def ranPast : AudioError := .badMediaPacket "LATM header ran past the packet"

namespace BitReader

/-- The bits that are left of a value, after those that were read. -/
def readFrom (value : ℕ) : ℕ → Reading ℕ
  | 0 => pure value
  | count + 1 => do
      let r ← get
      match r.bytes[r.bit / 8]? with
      | none => throw ranPast
      | some byte =>
        set { r with bit := r.bit + 1 }
        let bit := byte.toNat.testBit (7 - r.bit % 8)
        readFrom ((2 * value + bit.toNat) % 2 ^ 32) count

def read (count : ℕ) : Reading ℕ := readFrom 0 count

/-- At most eight bits. -/
def readU8 (count : ℕ) : Reading UInt8 := do
  let value ← read (min count 8)
  if value < 256 then pure (UInt8.ofNat value)
  else throw (.badMediaPacket "LATM field is too wide")

/-- `LatmGetValue()`: a count of bytes, then one more than that many bytes. -/
def value : Reading ℕ := do
  let extra ← read 2
  read ((extra + 1) * 8)

/-- Set the bit of `out` that is `i` from the high end. -/
def setHighBit (out : Bytes) (i : ℕ) : Bytes :=
  out.set (i / 8) (out.getD (i / 8) 0 ||| 1 <<< UInt8.ofNat (7 - i % 8))

def readBitsInto (out : Bytes) (i : ℕ) : ℕ → Reading Bytes
  | 0 => pure out
  | count + 1 => do
      let bit ← read 1
      readBitsInto (if bit = 1 then setHighBit out i else out) (i + 1) count

/-- Copy bits out as bytes, from the high end. -/
def readBitsAsBytes (count : ℕ) : Reading Bytes :=
  readBitsInto (.replicate ((count + 7) / 8) 0) 0 count

def bitPosition : Reading ℕ := do return (← get).bit

def seek (bit : ℕ) : Reading Unit := modify fun r => { r with bit }

/-- A loop whose turns go on or break off.  Every turn reads, so the packet
bounds them (`ends_loop`). -/
def loop {σ α : Type} (turn : σ → Reading (σ ⊕ α)) : ℕ → σ → Reading α
  | 0, _ => throw ranPast
  | fuel + 1, s => do
      match ← turn s with
      | .inl s => loop turn fuel s
      | .inr a => pure a

end BitReader

/-! ## What a reading does -/

variable {α β σ : Type} {m : Reading α} {f : α → Reading β} {r r' : BitReader}

theorem run_bind {a : α} (h : m r = .ok (a, r')) : (m >>= f) r = f a r' := by
  have hbind : (m >>= f) r = (m r) >>= fun found => f found.1 found.2 := rfl
  rw [hbind, h]
  rfl

theorem run_bind_error {e : AudioError} (h : m r = .error e) : (m >>= f) r = .error e := by
  have hbind : (m >>= f) r = (m r) >>= fun found => f found.1 found.2 := rfl
  rw [hbind, h]
  rfl

theorem exists_of_bind {b : β} (h : (m >>= f) r = .ok (b, r')) :
    ∃ a r₁, m r = .ok (a, r₁) ∧ f a r₁ = .ok (b, r') := by
  cases hm : m r with
  | error e => cases (run_bind_error hm).symm.trans h
  | ok found => exact ⟨found.1, found.2, rfl, (run_bind hm).symm.trans h⟩

/-- `m` goes at least `n` bits on and stays in the packet, or has run past it.
-/
structure Advances (n : ℕ) (m : Reading α) : Prop where
  moved : ∀ r a r', m r = .ok (a, r') →
    r'.bytes = r.bytes ∧ r.bit + n ≤ r'.bit ∧ r'.bit ≤ 8 * r.bytes.length
  stuck : ∀ r e, m r = .error e → e = ranPast

theorem readFrom_spec (value count : ℕ) (r : BitReader) :
    (∀ a r', BitReader.readFrom value count r = .ok (a, r') →
      r' = { r with bit := r.bit + count } ∧ (0 < count → r'.bit ≤ 8 * r.bytes.length)) ∧
      ∀ e, BitReader.readFrom value count r = .error e → e = ranPast := by
  induction count generalizing value r with
  | zero =>
    refine ⟨fun a r' h => ?_, fun e h => nomatch h⟩
    cases h
    exact ⟨rfl, fun hpos => absurd hpos (Nat.lt_irrefl 0)⟩
  | succ count ih =>
    cases hbyte : r.bytes[r.bit / 8]? with
    | none =>
      have hread : BitReader.readFrom value (count + 1) r = .error ranPast := by
        refine (run_bind rfl).trans ?_
        rw [hbyte]
        rfl
      rw [hread]
      refine ⟨fun a r' h => (nomatch h), fun e h => ?_⟩
      cases h
      rfl
    | some byte =>
      have hread : BitReader.readFrom value (count + 1) r = BitReader.readFrom
          ((2 * value + (byte.toNat.testBit (7 - r.bit % 8)).toNat) % 2 ^ 32) count
          { r with bit := r.bit + 1 } := by
        refine (run_bind rfl).trans ?_
        rw [hbyte]
        exact run_bind rfl
      rw [hread]
      obtain ⟨hok, herror⟩ := ih _ { r with bit := r.bit + 1 }
      refine ⟨fun a r' h => ?_, herror⟩
      obtain ⟨rfl, hwithin⟩ := hok a r' h
      have hinside : r.bit / 8 < r.bytes.length := (List.getElem?_eq_some_iff.mp hbyte).1
      refine ⟨by simp [Nat.add_comm 1, Nat.add_assoc], fun _ => ?_⟩
      rcases Nat.eq_zero_or_pos count with rfl | hpos
      · change r.bit + 1 + 0 ≤ 8 * r.bytes.length
        omega
      · exact hwithin hpos

theorem advances_read {count : ℕ} (h : 0 < count) : Advances count (BitReader.read count) where
  moved := fun r a r' hread => by
    obtain ⟨rfl, hwithin⟩ := (readFrom_spec 0 count r).1 a r' hread
    exact ⟨rfl, Nat.le_refl _, hwithin h⟩
  stuck := fun r => (readFrom_spec 0 count r).2

theorem Advances.bind {n k : ℕ} (hm : Advances n m) (hf : ∀ a, Advances k (f a)) :
    Advances (n + k) (m >>= f) where
  moved := fun r b r' h => by
    obtain ⟨a, r₁, hfirst, hsecond⟩ := exists_of_bind h
    obtain ⟨hbytes₁, hbit₁, -⟩ := hm.moved _ _ _ hfirst
    obtain ⟨hbytes, hbit, hwithin⟩ := (hf a).moved _ _ _ hsecond
    rw [hbytes₁] at hbytes hwithin
    exact ⟨hbytes, by omega, hwithin⟩
  stuck := fun r e h => by
    cases hfirst : m r with
    | error e' =>
      cases (run_bind_error hfirst).symm.trans h
      exact hm.stuck r e hfirst
    | ok found => exact (hf found.1).stuck found.2 e ((run_bind hfirst).symm.trans h)

theorem Advances.bind_pure {n : ℕ} (hm : Advances n m) (g : α → β) :
    Advances n (m >>= fun a => pure (g a)) where
  moved := fun r b r' h => by
    obtain ⟨a, r₁, hfirst, hsecond⟩ := exists_of_bind h
    cases hsecond
    exact hm.moved _ _ _ hfirst
  stuck := fun r e h => by
    cases hfirst : m r with
    | error e' =>
      cases (run_bind_error hfirst).symm.trans h
      exact hm.stuck r e hfirst
    | ok found => cases (run_bind hfirst).symm.trans h

theorem Advances.mono {n k : ℕ} (h : Advances n m) (hk : k ≤ n) : Advances k m where
  moved := fun r a r' hm => by
    obtain ⟨hbytes, hbit, hwithin⟩ := h.moved r a r' hm
    exact ⟨hbytes, by omega, hwithin⟩
  stuck := h.stuck

/-- The source's loop, which has no bound: it ends after `turns` turns that were
read whole, because the last of them breaks off or because the next one runs
past the packet. -/
inductive Ends (turn : σ → Reading (σ ⊕ α)) :
    σ → BitReader → ℕ → Except AudioError (α × BitReader) → Prop
  | broke {s r a r'} (h : turn s r = .ok (.inr a, r')) : Ends turn s r 1 (.ok (a, r'))
  | ranPast {s r} (h : turn s r = .error ranPast) : Ends turn s r 0 (.error ranPast)
  | wentOn {s r s' r' turns outcome} (h : turn s r = .ok (.inl s', r'))
      (rest : Ends turn s' r' turns outcome) : Ends turn s r (turns + 1) outcome

/-- A loop whose turns go eight bits on ends before its fuel does, if that is a
turn for each byte that is left. -/
theorem ends_loop {turn : σ → Reading (σ ⊕ α)} (hturn : ∀ s, Advances 8 (turn s)) (fuel : ℕ)
    (s : σ) (r : BitReader) (h : 8 * r.bytes.length < r.bit + 8 * (fuel + 1)) :
    ∃ turns ≤ fuel, Ends turn s r turns (BitReader.loop turn fuel s r) := by
  induction fuel generalizing s r with
  | zero =>
    cases hfirst : turn s r with
    | error e =>
      rw [(hturn s).stuck r e hfirst] at hfirst
      exact ⟨0, Nat.le_refl _, .ranPast hfirst⟩
    | ok found =>
      -- a whole turn does not fit any more
      obtain ⟨-, hbit, hwithin⟩ := (hturn s).moved r found.1 found.2 hfirst
      omega
  | succ fuel ih =>
    cases hfirst : turn s r with
    | error e =>
      rw [(hturn s).stuck r e hfirst] at hfirst
      rw [show BitReader.loop turn (fuel + 1) s r = .error ranPast from run_bind_error hfirst]
      exact ⟨0, Nat.zero_le _, .ranPast hfirst⟩
    | ok found =>
      obtain ⟨next, r'⟩ := found
      obtain ⟨hbytes, hbit, -⟩ := (hturn s).moved r next r' hfirst
      cases next with
      | inl s' =>
        obtain ⟨turns, hturns, hends⟩ := ih s' r' (by rw [hbytes]; omega)
        rw [show BitReader.loop turn (fuel + 1) s r = BitReader.loop turn fuel s' r' from
          run_bind hfirst]
        exact ⟨turns + 1, Nat.succ_le_succ hturns, .wentOn hfirst hends⟩
      | inr a =>
        rw [show BitReader.loop turn (fuel + 1) s r = .ok (a, r') from run_bind hfirst]
        exact ⟨1, Nat.succ_le_succ (Nat.zero_le _), .broke hfirst⟩

/-! ## The configuration -/

/-- What a packet keeps for those that reuse it. -/
structure StreamMuxConfig where
  audioSpecificConfig : Bytes
  /-- 2 is AAC-LC. -/
  audioObjectType : UInt8
  sampleRate : ℕ
  channels : UInt8
  deriving DecidableEq

/-- By `samplingFrequencyIndex`. -/
def samplingFrequencies : List ℕ :=
  [96000, 88200, 64000, 48000, 44100, 32000, 24000, 22050, 16000, 12000, 11025, 8000, 7350]

namespace StreamMuxConfig

open BitReader

def counts : Reading ℕ := do
  let audioMuxVersion ← read 1
  let audioMuxVersionA ← if audioMuxVersion = 1 then read 1 else pure 0
  if audioMuxVersionA ≠ 0 then throw (.badMediaPacket "LATM audioMuxVersionA is reserved") else
  let _taraBufferFullness ← if audioMuxVersion = 1 then value else pure 0
  let _allStreamsSameTimeFraming ← read 1
  let numSubFrames ← read 6
  let numProgram ← read 4
  let numLayer ← read 3
  if numSubFrames ≠ 0 then throw (.badMediaPacket "LATM numSubFrames > 0 is not implemented") else
  if numProgram ≠ 0 ∨ numLayer ≠ 0 then
    throw (.badMediaPacket "LATM multi-program/multi-layer streams are not implemented") else
  pure audioMuxVersion

/-- The length of the `AudioSpecificConfig`, which version 0 does not give. -/
def ascLength (audioMuxVersion : ℕ) : Reading (Option ℕ) :=
  if audioMuxVersion = 1 then some <$> value else pure none

/-- The fields of the `AudioSpecificConfig`, and then the whole of it, from its
start. -/
def specific (ascLen : Option ℕ) : Reading StreamMuxConfig := do
  let ascStart ← bitPosition
  let audioObjectType ← readU8 5
  let frequencyIndex ← read 4
  let channelConfiguration ← readU8 4
  match samplingFrequencies[frequencyIndex]? with
  | none => throw (.badMediaPacket "LATM names a sampling frequency index we cannot resolve")
  | some sampleRate => do
      let fieldsEnd ← bitPosition
      seek ascStart
      -- without a length, the configuration ends three bits after these fields
      let audioSpecificConfig ← readBitsAsBytes (ascLen.getD (fieldsEnd - ascStart + 3))
      pure { audioSpecificConfig, audioObjectType, sampleRate, channels := channelConfiguration }

/-- The length of other data in version 0: bytes, each after a bit that says
whether another follows. -/
def otherDataTurn (_ : Unit) : Reading (Unit ⊕ Unit) := do
  let escape ← read 1
  let _ ← read 8
  pure (if escape = 0 then .inr () else .inl ())

theorem advances_otherDataTurn (done : Unit) : Advances 8 (otherDataTurn done) :=
  Advances.mono ((advances_read Nat.one_pos).bind fun _ =>
    (advances_read (show 0 < 8 by decide)).bind_pure _) (by decide)

/-- What follows the `AudioSpecificConfig`. -/
def trailer (audioMuxVersion fuel : ℕ) : Reading Unit := do
  let _frameLengthType ← read 3
  let _latmBufferFullness ← read 8
  let otherDataPresent ← read 1
  if otherDataPresent = 1 then
    if audioMuxVersion = 1 then let _otherDataLenBits ← value
    else loop otherDataTurn fuel ()
  let crcPresent ← read 1
  if crcPresent = 1 then let _crc ← read 8

end StreamMuxConfig

open StreamMuxConfig in
def streamMuxConfig : Reading StreamMuxConfig := do
  let audioMuxVersion ← counts
  let ascLen ← ascLength audioMuxVersion
  let config ← specific ascLen
  trailer audioMuxVersion (← get).bytes.length
  pure config

/-! ## The access unit -/

/-- The length of the payload: bytes that add up, until one is not 255. -/
def lengthTurn (length : ℕ) : Reading (ℕ ⊕ ℕ) := do
  let byte ← BitReader.read 8
  pure (if byte ≠ 255 then .inr (length + byte) else .inl (length + byte))

theorem advances_lengthTurn (length : ℕ) : Advances 8 (lengthTurn length) :=
  (advances_read (by decide)).bind_pure _

/-- **The loops of the parser end on every packet**, wherever they begin in it,
in no more turns than it has bytes, and so before the fuel that the model gives
them does. -/
theorem loops_end (r : BitReader) :
    (∃ turns ≤ r.bytes.length, Ends StreamMuxConfig.otherDataTurn () r turns
      (BitReader.loop StreamMuxConfig.otherDataTurn r.bytes.length () r)) ∧
      ∀ length, ∃ turns ≤ r.bytes.length, Ends lengthTurn length r turns
        (BitReader.loop lengthTurn r.bytes.length length r) :=
  ⟨ends_loop StreamMuxConfig.advances_otherDataTurn _ () r (by omega),
    fun length => ends_loop advances_lengthTurn _ length r (by omega)⟩

/-- Where the access unit is in its packet. -/
def payloadRange : Reading (ℕ × ℕ) := do
  let payload := (← get).bytes
  let length ← BitReader.loop lengthTurn payload.length 0
  let bit ← BitReader.bitPosition
  if bit % 8 ≠ 0 then
    throw (.badMediaPacket "LATM payload does not start on a byte boundary") else
  let start := bit / 8
  if 2 ^ 64 ≤ start + length then throw (.badMediaPacket "LATM payload length overflows") else
  if payload.length < start + length then
    throw (.badMediaPacket "LATM payload length runs past the packet") else
  pure (start, start + length)

/-- The access unit is inside its packet. -/
theorem payloadRange_within {found : ℕ × ℕ} (h : payloadRange r = .ok (found, r')) :
    found.1 ≤ found.2 ∧ found.2 ≤ r.bytes.length := by
  obtain ⟨r₀, _, hget, h⟩ := exists_of_bind h
  cases hget
  obtain ⟨length, r₁, -, h⟩ := exists_of_bind h
  obtain ⟨bit, r₂, -, h⟩ := exists_of_bind h
  dsimp only at h
  split at h
  · cases h
  · split at h
    · cases h
    · split at h
      · cases h
      · next hfits =>
          cases h
          exact ⟨Nat.le_add_right _ _, Nat.not_lt.mp hfits⟩

structure LatmParser where
  config : Option StreamMuxConfig := none
  deriving DecidableEq

namespace LatmParser

/-- Pull the access unit out of what is left of a packet. -/
def slice (payload : Bytes) (r : BitReader) : Except AudioError Bytes :=
  (payloadRange r).map fun found => (payload.take found.1.2).drop found.1.1

/-- Pull the access unit out of one `AudioMuxElement`. -/
def accessUnit (parser : LatmParser) (payload : Bytes) : LatmParser × Except AudioError Bytes :=
  match BitReader.read 1 { bytes := payload } with
  | .error e => (parser, .error e)
  | .ok (useSameStreamMux, r) =>
    if useSameStreamMux = 0 then
      match streamMuxConfig r with
      | .error e => (parser, .error e)
      | .ok (config, r) => ({ config := some config }, slice payload r)
    else if parser.config = none then
      (parser, .error (.badMediaPacket
        "LATM packet reuses a configuration we have never been sent"))
    else (parser, slice payload r)

variable {parser : LatmParser} {payload : Bytes} {config : StreamMuxConfig}

theorem accessUnit_of_config (hread : BitReader.read 1 { bytes := payload } = .ok (0, r))
    (hconfig : streamMuxConfig r = .ok (config, r')) :
    parser.accessUnit payload = ({ config := some config }, slice payload r') := by
  simp [accessUnit, hread, hconfig]

theorem accessUnit_of_refused {e : AudioError}
    (hread : BitReader.read 1 { bytes := payload } = .ok (0, r))
    (hconfig : streamMuxConfig r = .error e) : parser.accessUnit payload = (parser, .error e) := by
  simp [accessUnit, hread, hconfig]

theorem accessUnit_of_reuse (hread : BitReader.read 1 { bytes := payload } = .ok (1, r)) :
    parser.accessUnit payload = (parser, if parser.config = none then
      .error (.badMediaPacket "LATM packet reuses a configuration we have never been sent")
      else slice payload r) := by
  simp only [accessUnit, hread, Nat.one_ne_zero, if_false]
  split <;> rfl

end LatmParser

end Castaway.Bluetooth
