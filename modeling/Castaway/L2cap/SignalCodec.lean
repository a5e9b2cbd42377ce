import Castaway.L2cap.Signaling

/-!
# The signaling codec

What survives the wire, and what a frame of any bytes decodes to.

An enumeration with an `other` case has two names for some wire values, and an
unknown option may look like one the decoder claims; `Signal.Canonical` says
that a command uses the first name and fits its length fields.

## Strategy

Any bytes are commands with whole length fields and then a rest that no command
can be cut off (`exists_commands`).  Each decoder takes one command off the
front (`decodeFrame_wire`, `decodeAll_wire`), so what it says of a frame is a
fold over the commands, and what it says of a canonical command is
`decodeOne_body`.
-/

namespace Castaway.L2cap

open List

/-! ## Canonical names -/

namespace ChannelMode

def Canonical : ChannelMode → Prop
  | other raw => raw ∉ [0x00, 0x03]
  | _ => True

theorem fromBits_bits {mode : ChannelMode} (h : mode.Canonical) : fromBits mode.bits = mode := by
  cases mode with
  | basic | enhancedRetransmission => rfl
  | other raw =>
    simp only [Canonical, mem_cons, not_mem_nil, or_false, not_or] at h
    rw [bits, fromBits, if_neg h.1, if_neg h.2]

end ChannelMode

namespace FcsType

def Canonical : FcsType → Prop
  | other raw => raw ∉ [0x00, 0x01]
  | _ => True

theorem fromBits_bits {check : FcsType} (h : check.Canonical) : fromBits check.bits = check := by
  cases check with
  | none | crc16 => rfl
  | other raw =>
    simp only [Canonical, mem_cons, not_mem_nil, or_false, not_or] at h
    rw [bits, fromBits, if_neg h.1, if_neg h.2]

end FcsType

namespace ConnectionResult

def Canonical : ConnectionResult → Prop
  | other raw => raw ∉ [0x0000, 0x0001, 0x0002, 0x0003, 0x0004]
  | _ => True

theorem fromBits_bits {result : ConnectionResult} (h : result.Canonical) :
    fromBits result.bits = result := by
  cases result with
  | other raw =>
    simp only [Canonical, mem_cons, not_mem_nil, or_false, not_or] at h
    obtain ⟨h₀, h₁, h₂, h₃, h₄⟩ := h
    rw [bits, fromBits, if_neg h₀, if_neg h₁, if_neg h₂, if_neg h₃, if_neg h₄]
  | _ => rfl

end ConnectionResult

namespace ConfigResult

def Canonical : ConfigResult → Prop
  | other raw => raw ∉ [0x0000, 0x0001, 0x0002, 0x0003, 0x0004]
  | _ => True

theorem fromBits_bits {result : ConfigResult} (h : result.Canonical) :
    fromBits result.bits = result := by
  cases result with
  | other raw =>
    simp only [Canonical, mem_cons, not_mem_nil, or_false, not_or] at h
    obtain ⟨h₀, h₁, h₂, h₃, h₄⟩ := h
    rw [bits, fromBits, if_neg h₀, if_neg h₁, if_neg h₂, if_neg h₃, if_neg h₄]
  | _ => rfl

end ConfigResult

/-! ## Options -/

namespace RetransmissionConfig

theorem decode_encode {config : RetransmissionConfig} (h : config.mode.Canonical) :
    decode config.encode = .ok config := by
  simp only [encode, putU16Le, cons_append, nil_append, decode, getU16Le_bytes,
    ChannelMode.fromBits_bits h]

end RetransmissionConfig

namespace ConfigOption

/-- The kinds the decoder claims, each at its own length. -/
def claimed : List (UInt8 × ℕ) := [(0x01, 2), (0x02, 2), (0x04, 9), (0x05, 1), (0x07, 2)]

def Canonical : ConfigOption → Prop
  | retransmission config => config.mode.Canonical
  | fcs check => check.Canonical
  | unknown kind _ data => kind < 0x80 ∧ data.length ≤ 255 ∧ (kind, data.length) ∉ claimed
  | _ => True

/-- The hint bit and the kind of an option come apart again. -/
theorem kind_or_hint {kind : UInt8} (h : kind < 0x80) (hint : Bool) :
    decide ((kind ||| if hint then hintBit else 0) &&& hintBit ≠ 0) = hint ∧
      (kind ||| if hint then hintBit else 0) &&& ~~~hintBit = kind := by
  have hall : ∀ n : Fin 128, ∀ hint : Bool,
      decide ((UInt8.ofNat n ||| if hint then hintBit else 0) &&& hintBit ≠ 0) = hint ∧
        (UInt8.ofNat n ||| if hint then hintBit else 0) &&& ~~~hintBit = UInt8.ofNat n := by
    decide +kernel
  have hkind := hall ⟨kind.toNat, h⟩ hint
  simpa only [UInt8.ofNat_toNat] using hkind

variable {option : ConfigOption}

/-- **One canonical option survives.** -/
theorem decodeOne_body (h : option.Canonical) :
    decodeOne option.body.1 option.body.2 = .ok option := by
  cases option with
  | mtu size =>
    change decodeOne 0x01 [loByte size, hiByte size] = _
    simp only [decodeOne]
    rw [if_pos (by decide), getU16Le_bytes]
  | flushTimeout timeout =>
    change decodeOne 0x02 [loByte timeout, hiByte timeout] = _
    simp only [decodeOne]
    rw [if_neg (by decide), if_pos (by decide), getU16Le_bytes]
  | extendedWindowSize size =>
    change decodeOne 0x07 [loByte size, hiByte size] = _
    simp only [decodeOne]
    rw [if_neg (by decide), if_neg (by decide), if_pos (by decide), getU16Le_bytes]
  | fcs check =>
    change decodeOne 0x05 [check.bits] = _
    simp only [decodeOne]
    rw [if_pos (by decide), FcsType.fromBits_bits h]
  | retransmission config =>
    change decodeOne 0x04 config.encode = _
    have hdecoded := RetransmissionConfig.decode_encode h
    simp only [RetransmissionConfig.encode, putU16Le, cons_append, nil_append]
      at hdecoded ⊢
    simp only [decodeOne]
    rw [if_pos ⟨by decide, rfl⟩, hdecoded, ok_bind]
  | unknown kind hint data =>
    obtain ⟨hkind, -, hclaimed⟩ := h
    obtain ⟨hhint, hrest⟩ := kind_or_hint hkind hint
    simp only [claimed, mem_cons, not_mem_nil, or_false, not_or, Prod.mk.injEq]
      at hclaimed
    obtain ⟨h₁, h₂, h₄, h₅, h₇⟩ := hclaimed
    change decodeOne (kind ||| if hint then hintBit else 0) data = .ok (unknown kind hint data)
    unfold decodeOne
    dsimp only
    rw [hrest, hhint]
    obtain _ | ⟨b₀, _ | ⟨b₁, _ | ⟨b₂, tail⟩⟩⟩ := data
    · exact if_neg h₄
    · simp only [length_cons, length_nil, and_true] at h₅
      exact if_neg h₅
    · simp only [length_cons, length_nil, and_true] at h₁ h₂ h₇
      exact (if_neg h₁).trans ((if_neg h₂).trans (if_neg h₇))
    · exact if_neg h₄

theorem length_body_le (h : option.Canonical) :
    option.body.2.length ≤ 255 := by
  cases option with
  | unknown kind hint data => exact h.2.1
  | _ => simp [body]

theorem decodeAll_encode (h : option.Canonical) (rest : Bytes) :
    decodeAll (option.encode ++ rest) =
      decodeAll rest >>= fun options => .ok (option :: options) := by
  have hlength := length_body_le h
  have hlen : (UInt8.ofNat (min option.body.2.length 255)).toNat = option.body.2.length := by
    rw [Nat.min_eq_left hlength, UInt8.toNat_ofNat', Nat.mod_eq_of_lt (by omega)]
  simp only [encode, cons_append]
  rw [decodeAll, hlen, if_neg (by simp), take_left, drop_left, decodeOne_body h, ok_bind]

theorem decodeAll_flatMap {options : List ConfigOption} (h : ∀ option ∈ options, option.Canonical) :
    decodeAll (options.flatMap encode) = .ok options := by
  induction options with
  | nil => rw [flatMap_nil, decodeAll]
  | cons option options ih =>
    rw [flatMap_cons, decodeAll_encode (h option (mem_cons_self ..)),
      ih fun other hother => h other (mem_cons_of_mem _ hother), ok_bind]

end ConfigOption

/-! ## Commands -/

namespace Signal

/-- A command in canonical form, which fits its length field. -/
def Canonical (sig : Signal) : Prop :=
  sig.body.length ≤ 65535 ∧
    match sig with
    | connectionResponse _ _ _ result _ => result.Canonical
    | configurationRequest _ _ _ options => ∀ option ∈ options, option.Canonical
    | configurationResponse _ _ _ result options =>
      result.Canonical ∧ ∀ option ∈ options, option.Canonical
    | _ => True

/-- **One canonical command survives.** -/
theorem decodeOne_body {sig : Signal} (h : sig.Canonical) :
    decodeOne sig.code sig.id sig.body = .ok sig := by
  obtain ⟨-, h⟩ := h
  cases sig with
  | commandReject id reason data =>
    change Except.ok (commandReject id (getU16Le (loByte reason) (hiByte reason)) data) = _
    rw [getU16Le_bytes]
  | connectionRequest id psm sourceCid =>
    change (Psm.new (getU16Le (loByte psm.raw) (hiByte psm.raw)) >>= fun psm =>
      Except.ok (connectionRequest id psm
        ⟨getU16Le (loByte sourceCid.raw) (hiByte sourceCid.raw)⟩)) = _
    rw [getU16Le_bytes, getU16Le_bytes, Psm.new_raw]
    rfl
  | connectionResponse id destCid sourceCid result status =>
    change decodeConnectionResponse id
      (connectionResponse id destCid sourceCid result status).body = _
    simp only [body, putU16Le, cons_append, nil_append, decodeConnectionResponse,
      getU16Le_bytes, ConnectionResult.fromBits_bits h]
  | configurationRequest id destCid flags options =>
    change decodeConfigurationRequest id (configurationRequest id destCid flags options).body = _
    simp only [body, putU16Le, cons_append, nil_append, decodeConfigurationRequest,
      getU16Le_bytes, ConfigOption.decodeAll_flatMap h, ok_bind]
  | configurationResponse id sourceCid flags result options =>
    change decodeConfigurationResponse id
      (configurationResponse id sourceCid flags result options).body = _
    simp only [body, putU16Le, cons_append, nil_append, decodeConfigurationResponse,
      getU16Le_bytes, ConfigResult.fromBits_bits h.1, ConfigOption.decodeAll_flatMap h.2, ok_bind]
  | disconnectionRequest id destCid sourceCid =>
    change decodeCidPair (disconnectionRequest id)
      (disconnectionRequest id destCid sourceCid).body = _
    simp only [body, putU16Le, cons_append, nil_append, decodeCidPair, getU16Le_bytes]
  | disconnectionResponse id destCid sourceCid =>
    change decodeCidPair (disconnectionResponse id)
      (disconnectionResponse id destCid sourceCid).body = _
    simp only [body, putU16Le, cons_append, nil_append, decodeCidPair, getU16Le_bytes]
  | echoRequest id data | echoResponse id data => rfl
  | informationRequest id infoType =>
    change decodeInformationRequest id (informationRequest id infoType).body = _
    simp only [body, putU16Le, decodeInformationRequest, getU16Le_bytes]
  | informationResponse id infoType result data =>
    change decodeInformationResponse id (informationResponse id infoType result data).body = _
    simp only [body, putU16Le, cons_append, nil_append, decodeInformationResponse,
      getU16Le_bytes]

/-- A command carries the identifier it was decoded under. -/
theorem id_of_decodeOne {code id : UInt8} {body : Bytes} {sig : Signal}
    (h : decodeOne code id body = .ok sig) : sig.id = id := by
  refine of_ite_eq h (fun h => ?_) fun h => ?_
  · unfold decodeCommandReject at h
    split at h <;> cases h
    rfl
  refine of_ite_eq h (fun h => ?_) fun h => ?_
  · unfold decodeConnectionRequest at h
    split at h
    · obtain ⟨psm, -, hsig⟩ := bind_eq_ok.mp h
      cases hsig
      rfl
    · cases h
  refine of_ite_eq h (fun h => ?_) fun h => ?_
  · unfold decodeConnectionResponse at h
    split at h <;> cases h
    rfl
  refine of_ite_eq h (fun h => ?_) fun h => ?_
  · unfold decodeConfigurationRequest at h
    split at h
    · obtain ⟨options, -, hsig⟩ := bind_eq_ok.mp h
      cases hsig
      rfl
    · cases h
  refine of_ite_eq h (fun h => ?_) fun h => ?_
  · unfold decodeConfigurationResponse at h
    split at h
    · obtain ⟨options, -, hsig⟩ := bind_eq_ok.mp h
      cases hsig
      rfl
    · cases h
  refine of_ite_eq h (fun h => ?_) fun h => ?_
  · unfold decodeCidPair at h
    split at h <;> cases h
    rfl
  refine of_ite_eq h (fun h => ?_) fun h => ?_
  · unfold decodeCidPair at h
    split at h <;> cases h
    rfl
  refine of_ite_eq h (fun h => ?_) fun h => ?_
  · cases h
    rfl
  refine of_ite_eq h (fun h => ?_) fun h => ?_
  · cases h
    rfl
  refine of_ite_eq h (fun h => ?_) fun h => ?_
  · unfold decodeInformationRequest at h
    split at h <;> cases h
    rfl
  refine of_ite_eq h (fun h => ?_) fun h => ?_
  · unfold decodeInformationResponse at h
    split at h <;> cases h
    rfl
  cases h

end Signal

/-! ## Frames -/

/-- One command of a frame, its data as long as its length field says. -/
structure Command where
  code : UInt8
  id : UInt8
  body : Bytes

namespace Command

def wire (command : Command) : Bytes :=
  command.code :: command.id :: (putU16Le (.ofNat command.body.length) ++ command.body)

def signal? (command : Command) : Option Signal :=
  (Signal.decodeOne command.code command.id command.body).toOption

def refusal? (command : Command) : Option CommandRefusal :=
  match Signal.decodeOne command.code command.id command.body with
  | .ok _ => none
  | .error _ => some ⟨command.id, notUnderstood⟩

/-- **Each command comes to one signal or one refusal, under its own
identifier.** -/
theorem signal_or_refusal (command : Command) :
    (∃ sig, command.signal? = some sig ∧ sig.id = command.id ∧ command.refusal? = none) ∨
      command.signal? = none ∧ command.refusal? = some ⟨command.id, notUnderstood⟩ := by
  unfold signal? refusal?
  cases hdecoded : Signal.decodeOne command.code command.id command.body with
  | ok sig => exact Or.inl ⟨sig, rfl, Signal.id_of_decodeOne hdecoded, rfl⟩
  | error error => exact Or.inr ⟨rfl, rfl⟩

end Command

namespace Signal

/-- Decode every command packed into one signaling PDU, failing on the first
that does not parse. -/
def decodeAll (buf : Bytes) : Except L2capError (List Signal) :=
  match buf with
  | [] => .ok []
  | code :: id :: lo :: hi :: rest =>
    let len := (getU16Le lo hi).toNat
    if rest.length < len then .error (.truncated "signaling body" (4 + len) (4 + rest.length))
    else do
      let sig ← decodeOne code id (rest.take len)
      let sigs ← decodeAll (rest.drop len)
      .ok (sig :: sigs)
  | short => .error (.truncated "signaling header" 4 short.length)
termination_by buf.length
decreasing_by
  simp only [length_drop, length_cons]
  omega

/-- No command can be cut off the front: there is no whole header, or not as
much behind it as its length field says. -/
def Cut : Bytes → Prop
  | _ :: _ :: lo :: hi :: rest => rest.length < (getU16Le lo hi).toNat
  | _ => True

/-- The refusal owed for a command that was cut short behind its header. -/
def cutRefusal : Bytes → List CommandRefusal
  | _ :: id :: _ :: _ :: _ => [⟨id, notUnderstood⟩]
  | _ => []

theorem getU16Le_putU16Le {n : ℕ} (h : n ≤ 65535) :
    (getU16Le (loByte (.ofNat n)) (hiByte (.ofNat n))).toNat = n := by
  rw [getU16Le_bytes, UInt16.toNat_ofNat', Nat.mod_eq_of_lt (by omega)]

/-- A command whose length field says how much of the frame it takes. -/
theorem wire_take {code id lo hi : UInt8} {rest : Bytes}
    (hlong : ¬rest.length < (getU16Le lo hi).toNat) :
    (rest.take (getU16Le lo hi).toNat).length ≤ 65535 ∧
      code :: id :: lo :: hi :: rest =
        Command.wire ⟨code, id, rest.take (getU16Le lo hi).toNat⟩ ++
          rest.drop (getU16Le lo hi).toNat := by
  have hlength : (rest.take (getU16Le lo hi).toNat).length = (getU16Le lo hi).toNat := by
    rw [length_take]
    omega
  have hlt : (getU16Le lo hi).toNat < 65536 := (getU16Le lo hi).toNat_lt
  refine ⟨by omega, ?_⟩
  have hlo : lo.toNat < 256 := lo.toNat_lt
  have hhi : hi.toNat < 256 := hi.toNat_lt
  have hvalue : (getU16Le lo hi).toNat = lo.toNat + 256 * hi.toNat := by
    rw [getU16Le, UInt16.toNat_ofNat', Nat.mod_eq_of_lt (by omega)]
  have hput : putU16Le (.ofNat (getU16Le lo hi).toNat) = [lo, hi] := by
    have hlow : loByte (.ofNat (getU16Le lo hi).toNat) = lo := by
      apply UInt8.toNat_inj.mp
      rw [loByte, UInt8.toNat_ofNat', UInt16.toNat_ofNat', hvalue]
      omega
    have hhigh : hiByte (.ofNat (getU16Le lo hi).toNat) = hi := by
      apply UInt8.toNat_inj.mp
      rw [hiByte, UInt8.toNat_ofNat', UInt16.toNat_ofNat', hvalue]
      omega
    rw [putU16Le, hlow, hhigh]
  rw [Command.wire, hlength, hput]
  simp only [cons_append, nil_append, take_append_drop]

/-- **Any bytes are commands and a rest that is cut.** -/
theorem exists_commands (buf : Bytes) : ∃ (commands : List Command) (rest : Bytes),
      (∀ command ∈ commands, command.body.length ≤ 65535) ∧ Cut rest ∧
      buf = commands.flatMap Command.wire ++ rest := by
  induction hlength : buf.length using Nat.strong_induction_on generalizing buf with
  | _ n ih =>
    by_cases hcut : Cut buf
    · exact ⟨[], buf, by simp, hcut, rfl⟩
    · match buf with
      | [] | [_] | [_, _] | [_, _, _] => exact absurd trivial hcut
      | code :: id :: lo :: hi :: rest =>
        obtain ⟨hbody, hwire⟩ := @wire_take code id lo hi rest hcut
        obtain ⟨commands, left, hbodies, hleft, hrest⟩ :=
          ih (rest.drop (getU16Le lo hi).toNat).length (by
            simp only [length_cons] at hlength
            rw [length_drop]
            omega) _ rfl
        refine ⟨⟨code, id, rest.take (getU16Le lo hi).toNat⟩ :: commands, left, ?_, hleft, ?_⟩
        · intro command hcommand
          rcases mem_cons.mp hcommand with rfl | hcommand
          · exact hbody
          · exact hbodies command hcommand
        · rw [flatMap_cons, append_assoc, ← hrest]
          exact hwire

/-- **The lenient decoder takes a command off the front.** -/
theorem decodeFrame_wire {command : Command} (h : command.body.length ≤ 65535) (rest : Bytes) :
    decodeFrame (command.wire ++ rest) =
      { signals := command.signal?.toList ++ (decodeFrame rest).signals
        rejects := command.refusal?.toList ++ (decodeFrame rest).rejects
        truncated := (decodeFrame rest).truncated } := by
  rw [Command.wire, putU16Le]
  simp only [cons_append, nil_append]
  rw [decodeFrame]
  simp only [getU16Le_putU16Le h]
  rw [if_neg (by simp), take_left, drop_left]
  unfold Command.signal? Command.refusal?
  cases decodeOne command.code command.id command.body <;> rfl

theorem decodeFrame_cut {rest : Bytes} (h : Cut rest) :
    decodeFrame rest = { rejects := cutRefusal rest, truncated := !rest.isEmpty } := by
  match rest with
  | [] | [_] | [_, _] | [_, _, _] => simp [decodeFrame, cutRefusal]
  | code :: id :: lo :: hi :: rest =>
    have hshort : rest.length < (getU16Le lo hi).toNat := h
    rw [decodeFrame, if_pos hshort]
    rfl

theorem decodeFrame_commands {commands : List Command} {rest : Bytes}
    (h : ∀ command ∈ commands, command.body.length ≤ 65535) (hcut : Cut rest) :
    decodeFrame (commands.flatMap Command.wire ++ rest) =
      { signals := commands.filterMap Command.signal?
        rejects := commands.filterMap Command.refusal? ++ cutRefusal rest
        truncated := !rest.isEmpty } := by
  induction commands with
  | nil => exact decodeFrame_cut hcut
  | cons command commands ih =>
    rw [flatMap_cons, append_assoc,
      decodeFrame_wire (h command (mem_cons_self ..)),
      ih fun other hother => h other (mem_cons_of_mem _ hother), filterMap_cons,
      filterMap_cons]
    cases command.signal? <;> cases command.refusal? <;> rfl

/-! ## The strict decoder -/

theorem decodeAll_wire {command : Command} (h : command.body.length ≤ 65535) (rest : Bytes) :
    decodeAll (command.wire ++ rest) =
      decodeOne command.code command.id command.body >>= fun sig =>
        decodeAll rest >>= fun sigs => .ok (sig :: sigs) := by
  rw [Command.wire, putU16Le]
  simp only [cons_append, nil_append]
  rw [decodeAll]
  simp only [getU16Le_putU16Le h]
  rw [if_neg (by simp), take_left, drop_left]

theorem decodeAll_cut {rest : Bytes} (h : Cut rest) {sigs : List Signal} :
    decodeAll rest = .ok sigs ↔ rest = [] ∧ sigs = [] := by
  match rest with
  | [] =>
    rw [decodeAll]
    constructor
    · rintro ⟨⟩
      exact ⟨rfl, rfl⟩
    · rintro ⟨-, rfl⟩
      rfl
  | [_] | [_, _] | [_, _, _] => simp [decodeAll]
  | code :: id :: lo :: hi :: rest =>
    have hshort : rest.length < (getU16Le lo hi).toNat := h
    rw [decodeAll, if_pos hshort]
    simp

/-- **The strict decoder accepts what the lenient one finds nothing wrong
with.** -/
theorem decodeAll_eq_ok_iff (buf : Bytes) (sigs : List Signal) : decodeAll buf = .ok sigs ↔
      decodeFrame buf = { signals := sigs, rejects := [], truncated := false } := by
  obtain ⟨commands, rest, hbodies, hcut, rfl⟩ := exists_commands buf
  induction commands generalizing sigs with
  | nil =>
    rw [flatMap_nil, nil_append, decodeAll_cut hcut, decodeFrame_cut hcut,
      DecodedFrame.mk.injEq]
    cases rest with
    | nil => simp [cutRefusal, eq_comm]
    | cons b rest => simp
  | cons command commands ih =>
    have hrest := fun sigs => ih sigs fun other hother =>
      hbodies other (mem_cons_of_mem _ hother)
    have hbody := hbodies command (mem_cons_self ..)
    rw [flatMap_cons, append_assoc, decodeAll_wire hbody, decodeFrame_wire hbody]
    unfold Command.signal? Command.refusal?
    cases decodeOne command.code command.id command.body with
    | error error => simp
    | ok sig =>
      rw [ok_bind, bind_eq_ok, DecodedFrame.mk.injEq]
      constructor
      · rintro ⟨later, hlater, hsigs⟩
        cases hsigs
        rw [(hrest later).mp hlater]
        exact ⟨rfl, rfl, rfl⟩
      · rintro ⟨rfl, hrejects, htruncated⟩
        refine ⟨_, (hrest _).mpr ?_, rfl⟩
        rw [← htruncated, DecodedFrame.mk.injEq]
        exact ⟨rfl, hrejects, rfl⟩

/-! ## The codec -/

def command (sig : Signal) : Command := ⟨sig.code, sig.id, sig.body⟩

theorem decodeFrame_wires {signals : List Signal} (h : ∀ sig ∈ signals, sig.Canonical) :
    decodeFrame (signals.flatMap wire) = { signals } := by
  induction signals with
  | nil => rw [flatMap_nil, decodeFrame]
  | cons sig signals ih =>
    have hsig := h sig (mem_cons_self ..)
    have hdecoded := decodeOne_body hsig
    have hwire : sig.wire = sig.command.wire := rfl
    rw [flatMap_cons, hwire, decodeFrame_wire hsig.1,
      ih fun other hother => h other (mem_cons_of_mem _ hother)]
    simp only [Command.signal?, Command.refusal?, command, hdecoded]
    rfl

theorem mapM_encode {signals : List Signal} (h : ∀ sig ∈ signals, sig.Canonical) :
    signals.mapM encode = .ok (signals.map wire) := by
  induction signals with
  | nil => rfl
  | cons sig signals ih =>
    have hlength := (h sig (mem_cons_self ..)).1
    rw [mapM_cons, ih fun other hother => h other (mem_cons_of_mem _ hother), encode,
      if_neg (by omega)]
    rfl

/-- **The signaling codec.**  Canonical commands survive being packed into one
frame; the strict decoder accepts what the lenient one finds nothing wrong with;
and in any frame each command whose length field is well formed comes to one
signal or one refusal under its identifier, in order, with no more than a
refusal for a command that was cut short behind them. -/
theorem signal_codec : (∀ signals : List Signal, (∀ sig ∈ signals, sig.Canonical) →
      ∃ wires, signals.mapM encode = .ok wires ∧
        decodeFrame wires.flatten = { signals := signals, rejects := [], truncated := false }) ∧
      (∀ buf sigs, decodeAll buf = .ok sigs ↔
        decodeFrame buf = { signals := sigs, rejects := [], truncated := false }) ∧
      ∀ buf, ∃ (commands : List Command) (rest : Bytes),
        (∀ command ∈ commands, command.body.length ≤ 65535) ∧ Cut rest ∧
        buf = commands.flatMap Command.wire ++ rest ∧
        decodeFrame buf =
          { signals := commands.filterMap Command.signal?
            rejects := commands.filterMap Command.refusal? ++ cutRefusal rest
            truncated := !rest.isEmpty } ∧
        ∀ command ∈ commands,
          (∃ sig, command.signal? = some sig ∧ sig.id = command.id ∧ command.refusal? = none) ∨
            command.signal? = none ∧ command.refusal? = some ⟨command.id, notUnderstood⟩ := by
  refine ⟨fun signals h => ⟨signals.map wire, mapM_encode h, ?_⟩, decodeAll_eq_ok_iff,
    fun buf => ?_⟩
  · rw [← flatMap_def, decodeFrame_wires h]
  · obtain ⟨commands, rest, hbodies, hcut, rfl⟩ := exists_commands buf
    exact ⟨commands, rest, hbodies, hcut, rfl, decodeFrame_commands hbodies hcut,
      fun command _ => command.signal_or_refusal⟩

/-- A connection response and a configuration request with an option nobody
knows, packed into one frame. -/
theorem signal_codec_packed : ∃ wires, [connectionResponse 1 ⟨0x41⟩ ⟨0x40⟩ .success 0,
        configurationRequest 2 ⟨0x40⟩ 0 [.mtu 672, .unknown 0x06 true [1, 2]]].mapM encode =
          .ok wires ∧
      decodeFrame wires.flatten =
        { signals := [connectionResponse 1 ⟨0x41⟩ ⟨0x40⟩ .success 0,
            configurationRequest 2 ⟨0x40⟩ 0 [.mtu 672, .unknown 0x06 true [1, 2]]]
          rejects := []
          truncated := false } := by
  refine signal_codec.1 _ ?_
  intro sig hsig
  rcases mem_cons.mp hsig with rfl | hsig
  · exact ⟨by decide, trivial⟩
  · rw [mem_singleton.mp hsig]
    refine ⟨by decide, fun option hoption => ?_⟩
    rcases mem_cons.mp hoption with rfl | hoption
    · trivial
    · rw [mem_singleton.mp hoption]
      exact ⟨by decide, by decide, by decide⟩

end Signal

end Castaway.L2cap
