import Castaway.Miracast.MiceCodec
import Mathlib.Data.List.Nodup

/-!
# What the control channel loses

The writer does not check what the reader asks of a message.  Three things part
them: a value may not be empty, zero units are dropped from a name, and a PIN
without encryption is refused.  `decode_encode_iff` says that nothing else does.

The other way round, what was read is written again without the TLVs that meant
nothing and with the port that was left out, so it may be longer than it was by
the port alone (`rewritten_iff`).
-/

namespace Castaway.Mice

open List

variable {bytes value : Bytes} {kind command : UInt8} {tlvs : Tlvs} {message : MiceMessage}
  {name : String} {friendlyName : Option String}

/-! ## Names -/

/-- The units of a value, without those that are zero. -/
def nameUnits (value : Bytes) : List UInt16 := (unitsLe value).filter (· ≠ 0)

theorem unitsLe_flatMap (units : List UInt16) : unitsLe (units.flatMap putU16Le) = units := by
  induction units with
  | nil => rfl
  | cons u units ih =>
    change getU16Le (loByte u) (hiByte u) :: unitsLe (units.flatMap putU16Le) = _
    rw [getU16Le_bytes, ih]

theorem length_flatMap_putU16Le (units : List UInt16) :
    (units.flatMap putU16Le).length = 2 * units.length := by
  induction units with
  | nil => rfl
  | cons u units ih =>
    rw [flatMap_cons, length_append, ih, length_putU16Le, length_cons]
    omega

theorem length_unitsLe_le (value : Bytes) : 2 * (unitsLe value).length ≤ value.length := by
  induction value using unitsLe.induct with
  | case1 | case2 b => exact Nat.zero_le _
  | case3 lo hi rest ih =>
    simp only [unitsLe, length_cons]
    omega

/-- A name that is read has just these units. -/
theorem decodeUtf16le_eq_ok (h : decodeUtf16le value = .ok name) :
    encodeUtf16 name.toList = nameUnits value := by
  unfold decodeUtf16le at h
  split at h
  · cases h
  · split at h
    · next chars hchars =>
        cases h
        rw [String.toList_ofList]
        exact encodeUtf16_of_fromUtf16 hchars
    · cases h

theorem nul_notMem_of_decodeUtf16le (h : decodeUtf16le value = .ok name) :
    Char.ofNat 0 ∉ name.toList := by
  rw [← zero_mem_encodeUtf16_iff, decodeUtf16le_eq_ok h]
  simp [nameUnits]

/-- A name is read back if it has none. -/
theorem decodeUtf16le_encodeUtf16le (name : String) :
    decodeUtf16le (encodeUtf16le name) = .ok name ↔ Char.ofNat 0 ∉ name.toList := by
  constructor
  · exact nul_notMem_of_decodeUtf16le
  · intro h
    have heven : (encodeUtf16le name).length % 2 = 0 := by
      rw [encodeUtf16le, length_flatMap_putU16Le]
      omega
    have hunits : (unitsLe (encodeUtf16le name)).filter (· ≠ 0) = encodeUtf16 name.toList := by
      rw [encodeUtf16le, unitsLe_flatMap, filter_eq_self]
      intro u hu
      simpa using fun hzero : u = 0 => h ((zero_mem_encodeUtf16_iff _).mp (hzero ▸ hu))
    rw [decodeUtf16le, if_neg (not_not.mpr heven), hunits, fromUtf16_encodeUtf16]
    exact congrArg Except.ok String.ofList_toList

theorem encodeUtf16le_eq_nil_iff : encodeUtf16le name = [] ↔ name = "" := by
  rw [← length_eq_zero_iff, encodeUtf16le, length_flatMap_putU16Le, Nat.mul_eq_zero,
    or_iff_right (by decide), length_eq_zero_iff, encodeUtf16_eq_nil_iff,
    String.toList_eq_nil_iff]

/-- A name that was read is empty if every unit was zero. -/
theorem eq_empty_iff_of_decodeUtf16le (h : decodeUtf16le value = .ok name) :
    name = "" ↔ nameUnits value = [] := by
  rw [← decodeUtf16le_eq_ok h, encodeUtf16_eq_nil_iff, String.toList_eq_nil_iff]

theorem length_encodeUtf16le (h : decodeUtf16le value = .ok name) :
    (encodeUtf16le name).length = 2 * (nameUnits value).length := by
  rw [encodeUtf16le, length_flatMap_putU16Le, decodeUtf16le_eq_ok h]

theorem length_nameUnits_le (value : Bytes) : 2 * (nameUnits value).length ≤ value.length := by
  have hfilter : (nameUnits value).length ≤ (unitsLe value).length := length_filter_le ..
  have hunits := length_unitsLe_le value
  omega

/-! ## From a message to its array -/

namespace MiceMessage

/-- No value of the message is empty. -/
def Full : MiceMessage → Prop
  | sourceReady friendlyName _ _ => friendlyName ≠ some ""
  | stopProjection friendlyName _ => friendlyName ≠ some ""
  | securityHandshake token => token ≠ []
  | sessionRequest friendlyName _ _ => friendlyName ≠ ""
  | pinChallenge _ challenge => challenge ≠ []
  | pinResponse _ _ => True

/-- No name has a NUL, and a PIN comes with encryption. -/
def Plain : MiceMessage → Prop
  | sourceReady friendlyName _ _ => ∀ name ∈ friendlyName, Char.ofNat 0 ∉ name.toList
  | stopProjection friendlyName _ => ∀ name ∈ friendlyName, Char.ofNat 0 ∉ name.toList
  | securityHandshake _ => True
  | sessionRequest friendlyName _ security =>
    Char.ofNat 0 ∉ friendlyName.toList ∧ security.Legal
  | pinChallenge _ _ => True
  | pinResponse _ _ => True

theorem nameTlv_ne_nil_iff :
    (∀ tlv ∈ nameTlv friendlyName, tlv.2 ≠ []) ↔ friendlyName ≠ some "" := by
  cases friendlyName with
  | none => simp [nameTlv]
  | some name => simp [nameTlv, encodeUtf16le_eq_nil_iff]

theorem sourceId_ne_nil (sourceId : SourceId) : sourceId.bytes ≠ [] := by
  intro h
  have hsixteen := sourceId.sixteen
  rw [h] at hsixteen
  cases hsixteen

/-- An empty value is one that was empty in the message. -/
theorem full_iff : message.Full ↔ ∀ tlv ∈ message.tlvs, tlv.2 ≠ [] := by
  cases message with
  | sourceReady friendlyName rtspPort sourceId =>
    simp only [Full, tlvs, forall_mem_append, nameTlv_ne_nil_iff]
    simp [putU16Be, sourceId_ne_nil]
  | stopProjection friendlyName sourceId =>
    simp only [Full, tlvs, forall_mem_append, nameTlv_ne_nil_iff]
    simp [sourceId_ne_nil]
  | securityHandshake token => simp [Full, tlvs]
  | sessionRequest friendlyName sourceId security =>
    simp [Full, tlvs, sourceId_ne_nil, encodeUtf16le_eq_nil_iff]
  | pinChallenge sourceId challenge | pinResponse sourceId reason =>
    simp [Full, tlvs, sourceId_ne_nil]

theorem bind_ok_eq_ok {α β : Type} {x : Result α} {f : α → β} (hf : Function.Injective f) {a : α} :
    (x >>= fun a => .ok (f a)) = (.ok (f a) : Result β) ↔ x = .ok a := by
  rw [bind_eq_ok]
  constructor
  · rintro ⟨a', hx, h⟩
    rw [hx, hf (Except.ok.inj h)]
  · exact fun h => ⟨a, h, rfl⟩

theorem nameOf_nameTlv (friendlyName : Option String) (rest : Tlvs)
    (h : rest.get Tlv.friendlyName = none) :
    nameOf (nameTlv friendlyName ++ rest) false = .ok friendlyName ↔
      ∀ name ∈ friendlyName, Char.ofNat 0 ∉ name.toList := by
  cases friendlyName with
  | none =>
    change nameOf rest false = _ ↔ _
    rw [nameOf, h]
    simp
  | some name =>
    change (decodeUtf16le (encodeUtf16le name)).map some = _ ↔ _
    have hforall : (∀ text ∈ some name, Char.ofNat 0 ∉ text.toList) ↔
        Char.ofNat 0 ∉ name.toList := by simp
    rw [hforall, ← decodeUtf16le_encodeUtf16le]
    cases decodeUtf16le (encodeUtf16le name) with
    | error stop =>
      constructor
      · intro h
        cases h
      · intro h
        cases h
    | ok read =>
      change Except.ok (some read) = Except.ok (some name) ↔ _
      rw [Except.ok.injEq, Except.ok.injEq, Option.some.injEq]

theorem sourceIdOf_of_get {sourceId : SourceId} (h : tlvs.get Tlv.sourceId = some sourceId.bytes) :
    sourceIdOf tlvs = .ok sourceId := by
  rw [sourceIdOf, Tlvs.find, h]
  exact dif_pos sourceId.sixteen

/-- The array of a message is read as that message if it is plain. -/
theorem ofTlvs_tlvs : ofTlvs message.command message.tlvs = .ok message ↔ message.Plain := by
  cases message with
  | sourceReady friendlyName rtspPort sourceId =>
    have hname := nameOf_nameTlv friendlyName
      [(Tlv.rtspPort, putU16Be rtspPort), (Tlv.sourceId, sourceId.bytes)] rfl
    have hport : rtspPortOf (nameTlv friendlyName ++
        [(Tlv.rtspPort, putU16Be rtspPort), (Tlv.sourceId, sourceId.bytes)]) = .ok rtspPort := by
      cases friendlyName <;> exact congrArg Except.ok (getU16Be_bytes rtspPort)
    have hid : sourceIdOf (nameTlv friendlyName ++
        [(Tlv.rtspPort, putU16Be rtspPort), (Tlv.sourceId, sourceId.bytes)]) = .ok sourceId :=
      sourceIdOf_of_get (by cases friendlyName <;> rfl)
    rw [command, tlvs, ofTlvs, if_pos rfl, hport, hid, Plain, ← hname]
    exact bind_ok_eq_ok (f := fun name => sourceReady name rtspPort sourceId)
      fun _ _ h => (sourceReady.inj h).1
  | stopProjection friendlyName sourceId =>
    have hname := nameOf_nameTlv friendlyName
      [(Tlv.sourceId, sourceId.bytes)] rfl
    have hid : sourceIdOf (nameTlv friendlyName ++ [(Tlv.sourceId, sourceId.bytes)]) =
        .ok sourceId := sourceIdOf_of_get (by cases friendlyName <;> rfl)
    rw [command, tlvs, ofTlvs, if_neg (by decide), if_pos rfl, hid, Plain, ← hname]
    exact bind_ok_eq_ok (f := fun name => stopProjection name sourceId)
      fun _ _ h => (stopProjection.inj h).1
  | securityHandshake token => exact iff_of_true rfl trivial
  | sessionRequest friendlyName sourceId security =>
    have hid : sourceIdOf (sessionRequest friendlyName sourceId security).tlvs = .ok sourceId :=
      sourceIdOf_of_get rfl
    have hsecurity : securityOf (sessionRequest friendlyName sourceId security).tlvs =
        (SecurityOptions.fromBits security.bits).mapError .error := rfl
    have hname : nameOf (sessionRequest friendlyName sourceId security).tlvs true =
        (decodeUtf16le (encodeUtf16le friendlyName)).map some := rfl
    have hread := decodeUtf16le_encodeUtf16le friendlyName
    rw [command, ofTlvs, if_neg (by decide), if_neg (by decide), if_neg (by decide), if_pos rfl,
      hid, hsecurity, hname, SecurityOptions.fromBits_bits, Plain, ← hread]
    cases decodeUtf16le (encodeUtf16le friendlyName) with
    | error stop =>
      constructor
      · intro h
        cases h
      · rintro ⟨h, -⟩
        cases h
    | ok read =>
      split
      · next hlegal =>
          change Except.ok (sessionRequest read sourceId security) = _ ↔ _
          simp [hlegal]
      · next hlegal =>
          constructor
          · intro h
            cases h
          · exact fun h => absurd h.2 hlegal
  | pinChallenge sourceId challenge =>
    have hid : sourceIdOf (pinChallenge sourceId challenge).tlvs = .ok sourceId :=
      sourceIdOf_of_get rfl
    rw [command, ofTlvs, if_neg (by decide), if_neg (by decide), if_neg (by decide),
      if_neg (by decide), if_pos rfl, hid]
    exact iff_of_true rfl trivial
  | pinResponse sourceId reason =>
    have hid : sourceIdOf (pinResponse sourceId reason).tlvs = .ok sourceId :=
      sourceIdOf_of_get rfl
    have hreason : reasonOf reason.bits = .ok reason := by
      rw [reasonOf, PinResponseReason.fromBits_bits]
    have hvalue : Tlvs.find (pinResponse sourceId reason).tlvs Tlv.pinResponseReason =
        .ok [reason.bits] := rfl
    rw [command, ofTlvs, if_neg (by decide), if_neg (by decide), if_neg (by decide),
      if_neg (by decide), if_neg (by decide), if_pos rfl, hid, hvalue, ok_bind, oneByte, ok_bind,
      ok_bind, hreason]
    exact iff_of_true rfl trivial

/-- What is written says its own length. -/
theorem framedLen_encode (h : encode message = .ok bytes) (trailing : Bytes) :
    framedLen (bytes ++ trailing) = .ok bytes.length := by
  obtain ⟨hframable, rfl⟩ := encode_eq_ok.mp h
  exact framedLen_frame hframable trailing

/-- **What is written is read back, whatever follows it, exactly if the reader
takes every value in it.** -/
theorem decode_encode_iff (h : encode message = .ok bytes) (trailing : Bytes) :
    decode (bytes ++ trailing) = .ok message ↔ message.Full ∧ message.Plain := by
  obtain ⟨hframable, rfl⟩ := encode_eq_ok.mp h
  rw [decode_frame hframable, full_iff]
  by_cases hfull : ∀ tlv ∈ message.tlvs, tlv.2 ≠ []
  · have hfits (tlv) (hmem : tlv ∈ message.tlvs) : Fits tlv :=
      ⟨hfull tlv hmem, length_lt_of_framable hframable hmem⟩
    rw [decodeAll_flatMap hfits, ok_bind, ofTlvs_tlvs]
    exact (and_iff_right hfull).symm
  · have hempty : ∃ tlv ∈ message.tlvs, tlv.2 = [] := by
      by_contra hnone
      exact hfull fun tlv hmem hnil => hnone ⟨tlv, hmem, hnil⟩
    obtain ⟨kind, hkind⟩ :=
      decodeAll_empty (fun tlv => length_lt_of_framable hframable) hempty
    rw [hkind]
    constructor
    · intro h
      cases h
    · exact fun hsound => absurd hsound.1 hfull

end MiceMessage

/-! ## From an array to a message and back -/

theorem get_of_find (h : Tlvs.find tlvs kind = .ok value) : tlvs.get kind = some value := by
  unfold Tlvs.find at h
  split at h
  · next hget =>
      cases h
      exact hget
  · cases h

theorem mem_of_get (h : tlvs.get kind = some value) : (kind, value) ∈ tlvs := by
  obtain ⟨tlv, hfind, rfl⟩ := Option.map_eq_some_iff.mp h
  have hkind : tlv.1 = kind := by simpa using find?_some hfind
  exact hkind ▸ mem_of_find?_eq_some hfind

/-- How many bytes the first TLV of a kind takes. -/
def room (tlvs : Tlvs) (kind : UInt8) : ℕ := ((tlvs.get kind).map (·.length + 3)).getD 0

theorem room_of_get (h : tlvs.get kind = some value) : room tlvs kind = value.length + 3 := by
  rw [room, h]
  rfl

theorem room_cons (tlv : UInt8 × Bytes) (tlvs : Tlvs) (kind : UInt8) :
    room (tlv :: tlvs) kind = if tlv.1 = kind then tlv.2.length + 3 else room tlvs kind := by
  rw [room, Tlvs.get, find?_cons]
  by_cases h : tlv.1 = kind
  · rw [if_pos h, beq_iff_eq.mpr h]
    rfl
  · rw [if_neg h, beq_eq_false_iff_ne.mpr h]
    rfl

/-- TLVs of different kinds do not share a byte. -/
theorem sum_room_le {kinds : List UInt8} (hkinds : kinds.Nodup) (tlvs : Tlvs) :
    (kinds.map (room tlvs)).sum ≤ (tlvs.flatMap writeTlv).length := by
  induction tlvs with
  | nil =>
    have hzero : kinds.map (room []) = kinds.map fun _ => 0 := rfl
    rw [hzero, map_const', sum_replicate_nat, Nat.mul_zero]
    exact Nat.zero_le _
  | cons tlv tlvs ih =>
    have hfront : ∀ {kinds : List UInt8}, kinds.Nodup → (kinds.map (room (tlv :: tlvs))).sum ≤
        tlv.2.length + 3 + (kinds.map (room tlvs)).sum := by
      intro kinds hkinds
      induction kinds with
      | nil => exact Nat.zero_le _
      | cons kind kinds ih =>
        obtain ⟨hkind, hrest⟩ := nodup_cons.mp hkinds
        have htail := ih hrest
        rw [map_cons, sum_cons, map_cons, sum_cons, room_cons]
        split
        · next heq =>
            have hsame : kinds.map (room (tlv :: tlvs)) = kinds.map (room tlvs) := by
              refine map_congr_left fun kind' hmem => ?_
              rw [room_cons, if_neg]
              rintro rfl
              exact hkind (heq ▸ hmem)
            rw [hsame]
            omega
        · omega
    have hstep := hfront hkinds
    rw [flatMap_cons, length_append, length_writeTlv]
    omega

/-- The array of a message whose values were found in an array, each under its
kind, is no longer. -/
theorem framable_of_found {written : Tlvs} (hkinds : (written.map Prod.fst).Nodup)
    (hfound : ∀ tlv ∈ written, ∃ value, tlvs.get tlv.1 = some value ∧
      tlv.2.length ≤ value.length) (h : Framable tlvs) : Framable written := by
  have hle : (written.flatMap writeTlv).length ≤ ((written.map Prod.fst).map (room tlvs)).sum := by
    clear hkinds
    induction written with
    | nil => exact Nat.zero_le _
    | cons tlv written ih =>
      obtain ⟨value, hget, hlength⟩ := hfound tlv mem_cons_self
      have hrest := ih fun tlv' hmem => hfound tlv' (mem_cons_of_mem _ hmem)
      rw [flatMap_cons, length_append, length_writeTlv, map_cons, map_cons,
        sum_cons, room_of_get hget]
      omega
  have hroom := sum_room_le hkinds tlvs
  unfold Framable at h ⊢
  omega

namespace MiceMessage

theorem nameOf_eq_ok {required : Bool} (h : nameOf tlvs required = .ok friendlyName) :
    (∃ value name, tlvs.get Tlv.friendlyName = some value ∧ decodeUtf16le value = .ok name ∧
      friendlyName = some name) ∨
    tlvs.get Tlv.friendlyName = none ∧ friendlyName = none ∧ required = false := by
  unfold nameOf at h
  split at h
  · next value hget =>
      cases hname : decodeUtf16le value with
      | error stop => rw [hname] at h; cases h
      | ok name =>
        rw [hname] at h
        cases h
        exact .inl ⟨value, name, hget, hname, rfl⟩
  · next hget =>
      split at h
      · cases h
      · next hrequired =>
          cases h
          exact .inr ⟨hget, rfl, Bool.eq_false_of_not_eq_true hrequired⟩

theorem sourceIdOf_eq_ok {sourceId : SourceId} (h : sourceIdOf tlvs = .ok sourceId) :
    tlvs.get Tlv.sourceId = some sourceId.bytes := by
  obtain ⟨value, hfind, h⟩ := bind_eq_ok.mp h
  split at h
  · cases h
    exact get_of_find hfind
  · cases h

theorem securityOf_eq_ok {security : SecurityOptions} (h : securityOf tlvs = .ok security) :
    (∃ raw, tlvs.get Tlv.securityOptions = some [raw]) ∧ security.Legal := by
  obtain ⟨value, hfind, h⟩ := bind_eq_ok.mp h
  obtain ⟨raw, hbyte, h⟩ := bind_eq_ok.mp h
  refine ⟨⟨raw, ?_⟩, ?_⟩
  · rw [get_of_find hfind]
    unfold oneByte at hbyte
    split at hbyte
    · cases hbyte
      rfl
    · cases hbyte
  · cases hoptions : SecurityOptions.fromBits raw with
    | error e => rw [hoptions] at h; cases h
    | ok options =>
      rw [hoptions] at h
      cases h
      exact SecurityOptions.legal_of_fromBits hoptions

/-- **What the array must hold for its message to be written and read again**: a
name with a unit that is not zero, and room for the port of a `SOURCE_READY`. -/
def Rewritable (command : UInt8) (tlvs : Tlvs) : Prop :=
  (command = 0x01 ∨ command = 0x02 ∨ command = 0x04) →
    ∀ value, tlvs.get Tlv.friendlyName = some value →
      nameUnits value ≠ [] ∧ (command = 0x01 → (nameUnits value).length ≤ 32752)

/-- Written and read again, a message is itself if it fits, is full and is
plain. -/
theorem rewritten_iff_of_encode :
    (∃ bytes, encode message = .ok bytes ∧ decode bytes = .ok message) ↔
      Framable message.tlvs ∧ message.Full ∧ message.Plain := by
  constructor
  · rintro ⟨bytes, hencode, hdecode⟩
    refine ⟨(encode_eq_ok.mp hencode).1, (decode_encode_iff hencode []).mp ?_⟩
    rwa [append_nil]
  · rintro ⟨hframable, hsound⟩
    have hencode := encode_eq_ok.mpr ⟨hframable, rfl⟩
    refine ⟨_, hencode, ?_⟩
    have hdecode := (decode_encode_iff hencode []).mpr hsound
    rwa [append_nil] at hdecode

theorem nodup_kinds (message : MiceMessage) : (message.tlvs.map Prod.fst).Nodup := by
  cases message with
  | sourceReady friendlyName rtspPort sourceId =>
    cases friendlyName with
    | none =>
      change [Tlv.rtspPort, Tlv.sourceId].Nodup
      decide
    | some name =>
      change [Tlv.friendlyName, Tlv.rtspPort, Tlv.sourceId].Nodup
      decide
  | stopProjection friendlyName sourceId =>
    cases friendlyName with
    | none => exact nodup_singleton _
    | some name =>
      change [Tlv.friendlyName, Tlv.sourceId].Nodup
      decide
  | securityHandshake token => exact nodup_singleton _
  | sessionRequest friendlyName sourceId security =>
    change [Tlv.friendlyName, Tlv.sourceId, Tlv.securityOptions].Nodup
    decide
  | pinChallenge sourceId challenge =>
    change [Tlv.sourceId, Tlv.pinChallenge].Nodup
    decide
  | pinResponse sourceId reason =>
    change [Tlv.sourceId, Tlv.pinResponseReason].Nodup
    decide

theorem rewritable_iff_of_get (hcommand : command = 0x01 ∨ command = 0x02 ∨ command = 0x04)
    (hget : tlvs.get Tlv.friendlyName = some value) : Rewritable command tlvs ↔
      nameUnits value ≠ [] ∧ (command = 0x01 → (nameUnits value).length ≤ 32752) := by
  constructor
  · exact fun h => h hcommand value hget
  · intro h _ value' hget'
    cases hget.symm.trans hget'
    exact h

theorem rewritable_of_get_none (hget : tlvs.get Tlv.friendlyName = none) :
    Rewritable command tlvs := by
  intro _ value hvalue
  cases hget.symm.trans hvalue

/-- The port that was left out is the one thing that may not fit. -/
theorem framable_sourceReady_iff (hname : decodeUtf16le value = .ok name) (rtspPort : UInt16)
    (sourceId : SourceId) : Framable (sourceReady (some name) rtspPort sourceId).tlvs ↔
      (nameUnits value).length ≤ 32752 := by
  have hlength := length_encodeUtf16le hname
  have hsixteen := sourceId.sixteen
  simp only [Framable, tlvs, nameTlv, Option.toList_some, map_cons, map_nil,
    singleton_append, flatMap_cons, flatMap_nil, length_append,
    length_writeTlv, length_putU16Be, length_nil, headerLen]
  omega

theorem framable_sourceReady_none (rtspPort : UInt16) (sourceId : SourceId) :
    Framable (sourceReady none rtspPort sourceId).tlvs := by
  have hsixteen := sourceId.sixteen
  simp only [Framable, tlvs, nameTlv, Option.toList_none, map_nil, nil_append,
    flatMap_cons, flatMap_nil, length_append, length_writeTlv, length_putU16Be,
    length_nil, headerLen]
  omega

/-- The name of a message, written again, is found in what it was read from. -/
theorem exists_get_of_decodeUtf16le (hget : tlvs.get Tlv.friendlyName = some value)
    (hname : decodeUtf16le value = .ok name) : ∃ value', tlvs.get Tlv.friendlyName = some value' ∧
      (encodeUtf16le name).length ≤ value'.length := by
  refine ⟨value, hget, ?_⟩
  rw [length_encodeUtf16le hname]
  exact length_nameUnits_le value

/-- **What is read is written and read again exactly if its array has what that
takes.** -/
theorem rewritten_iff (hframable : Framable tlvs) (hfits : ∀ tlv ∈ tlvs, Fits tlv)
    (h : ofTlvs command tlvs = .ok message) :
    (∃ bytes, encode message = .ok bytes ∧ decode bytes = .ok message) ↔
      Rewritable command tlvs := by
  rw [rewritten_iff_of_encode]
  unfold ofTlvs at h
  split at h
  · next hcommand =>
      obtain ⟨friendlyName, hname, h⟩ := bind_eq_ok.mp h
      obtain ⟨rtspPort, -, h⟩ := bind_eq_ok.mp h
      obtain ⟨sourceId, -, h⟩ := bind_eq_ok.mp h
      cases h
      obtain ⟨value, name, hget, hread, rfl⟩ | ⟨hget, rfl, -⟩ := nameOf_eq_ok hname
      · rw [framable_sourceReady_iff hread, rewritable_iff_of_get (.inl hcommand) hget]
        have hempty := eq_empty_iff_of_decodeUtf16le hread
        have hnul := nul_notMem_of_decodeUtf16le hread
        simp [Full, Plain, hempty, hnul, hcommand, and_comm]
      · have hframed := framable_sourceReady_none rtspPort sourceId
        simp [Full, Plain, hframed, rewritable_of_get_none hget]
  split at h
  · next hcommand =>
      obtain ⟨friendlyName, hname, h⟩ := bind_eq_ok.mp h
      obtain ⟨sourceId, hid, h⟩ := bind_eq_ok.mp h
      cases h
      have hsource := sourceIdOf_eq_ok hid
      obtain ⟨value, name, hget, hread, rfl⟩ | ⟨hget, rfl, -⟩ := nameOf_eq_ok hname
      · have hframed : Framable (stopProjection (some name) sourceId).tlvs := by
          refine framable_of_found (nodup_kinds _) ?_ hframable
          refine forall_mem_cons.mpr ⟨exists_get_of_decodeUtf16le hget hread, ?_⟩
          exact forall_mem_singleton.mpr ⟨_, hsource, le_rfl⟩
        rw [rewritable_iff_of_get (.inr (.inl hcommand)) hget]
        have hempty := eq_empty_iff_of_decodeUtf16le hread
        have hnul := nul_notMem_of_decodeUtf16le hread
        simp [Full, Plain, hempty, hnul, hcommand, hframed]
      · have hframed : Framable (stopProjection none sourceId).tlvs :=
          framable_of_found (nodup_kinds _) (forall_mem_singleton.mpr ⟨_, hsource, le_rfl⟩)
            hframable
        simp [Full, Plain, hframed, rewritable_of_get_none hget]
  split at h
  · next hcommand =>
      obtain ⟨token, hfind, h⟩ := bind_eq_ok.mp h
      cases h
      have hget := get_of_find hfind
      have hframed : Framable (securityHandshake token).tlvs :=
        framable_of_found (nodup_kinds _) (forall_mem_singleton.mpr ⟨_, hget, le_rfl⟩)
          hframable
      have htoken : token ≠ [] := (hfits _ (mem_of_get hget)).1
      simp [Full, Plain, hframed, htoken, Rewritable, hcommand]
  split at h
  · next hcommand =>
      obtain ⟨friendlyName, hname, h⟩ := bind_eq_ok.mp h
      obtain ⟨sourceId, hid, h⟩ := bind_eq_ok.mp h
      obtain ⟨security, hsecurity, h⟩ := bind_eq_ok.mp h
      cases h
      obtain ⟨⟨raw, hoptions⟩, hlegal⟩ := securityOf_eq_ok hsecurity
      obtain ⟨value, name, hget, hread, rfl⟩ | ⟨-, -, hrequired⟩ := nameOf_eq_ok hname
      · have hframed : Framable (sessionRequest name sourceId security).tlvs := by
          refine framable_of_found (nodup_kinds _) ?_ hframable
          refine forall_mem_cons.mpr ⟨exists_get_of_decodeUtf16le hget hread, ?_⟩
          refine forall_mem_cons.mpr ⟨⟨_, sourceIdOf_eq_ok hid, le_rfl⟩, ?_⟩
          exact forall_mem_singleton.mpr ⟨_, hoptions, le_rfl⟩
        rw [rewritable_iff_of_get (.inr (.inr hcommand)) hget]
        have hempty := eq_empty_iff_of_decodeUtf16le hread
        have hnul := nul_notMem_of_decodeUtf16le hread
        simp [Full, Plain, hempty, hnul, hcommand, hframed, hlegal]
      · cases hrequired
  split at h
  · next hcommand =>
      obtain ⟨sourceId, hid, h⟩ := bind_eq_ok.mp h
      obtain ⟨challenge, hfind, h⟩ := bind_eq_ok.mp h
      cases h
      have hget := get_of_find hfind
      have hframed : Framable (pinChallenge sourceId challenge).tlvs := by
        refine framable_of_found (nodup_kinds _) ?_ hframable
        refine forall_mem_cons.mpr ⟨⟨_, sourceIdOf_eq_ok hid, le_rfl⟩, ?_⟩
        exact forall_mem_singleton.mpr ⟨_, hget, le_rfl⟩
      have hchallenge : challenge ≠ [] := (hfits _ (mem_of_get hget)).1
      simp [Full, Plain, hframed, hchallenge, Rewritable, hcommand]
  split at h
  · next hcommand =>
      obtain ⟨value, -, h⟩ := bind_eq_ok.mp h
      obtain ⟨raw, -, h⟩ := bind_eq_ok.mp h
      obtain ⟨sourceId, -, h⟩ := bind_eq_ok.mp h
      obtain ⟨reason, -, h⟩ := bind_eq_ok.mp h
      cases h
      have hframed : Framable (pinResponse sourceId reason).tlvs := by
        have hsixteen := sourceId.sixteen
        simp only [Framable, MiceMessage.tlvs, flatMap_cons, flatMap_nil,
          length_append, length_writeTlv, length_cons, length_nil, headerLen]
        omega
      simp [Full, Plain, hframed, Rewritable, hcommand]
  · cases h

end MiceMessage

end Castaway.Mice
