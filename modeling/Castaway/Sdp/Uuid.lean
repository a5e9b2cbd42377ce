import Castaway.Lib.Bytes

/-!
# Bluetooth UUIDs

A UUID is stored expanded to sixteen bytes, with the width it was written in
beside them.  Only the three constructors make one, so a short or medium UUID
agrees with the base UUID outside of the bytes its number fills in, and the
number can be read back from those bytes (`eq_short`, `eq_medium`).
-/

namespace Castaway.Sdp

/-- The Bluetooth Base UUID, `00000000-0000-1000-8000-00805F9B34FB`. -/
def base : Bytes :=
  [0x00, 0x00, 0x00, 0x00, 0x00, 0x00, 0x10, 0x00,
    0x80, 0x00, 0x00, 0x80, 0x5F, 0x9B, 0x34, 0xFB]

/-- How wide a UUID was on the wire. -/
inductive UuidWidth
  | short
  | medium
  | long
deriving DecidableEq, Repr

/-- A Bluetooth UUID, stored expanded.  The fields are private in the source,
and the last two conditions are what its constructors keep. -/
structure Uuid where
  bytes : Bytes
  width : UuidWidth
  length_bytes : bytes.length = 16
  drop_of_ne_long : width ≠ .long → bytes.drop 4 = base.drop 4
  take_of_short : width = .short → bytes.take 2 = [0, 0]
deriving DecidableEq

namespace Uuid

/-- Build from a 16-bit short UUID. -/
def short (value : UInt16) : Uuid where
  bytes := [0, 0] ++ beBytes 2 value.toNat ++ base.drop 4
  width := .short
  length_bytes := rfl
  drop_of_ne_long := fun _ => rfl
  take_of_short := fun _ => rfl

/-- Build from a 32-bit UUID. -/
def medium (value : UInt32) : Uuid where
  bytes := beBytes 4 value.toNat ++ base.drop 4
  width := .medium
  length_bytes := rfl
  drop_of_ne_long := fun _ => rfl
  take_of_short := fun h => UuidWidth.noConfusion h

/-- Build from a full 128-bit UUID. -/
def long (bytes : Bytes) (hlength : bytes.length = 16) : Uuid where
  bytes := bytes
  width := .long
  length_bytes := hlength
  drop_of_ne_long := fun h => absurd rfl h
  take_of_short := fun h => UuidWidth.noConfusion h

@[simp] theorem bytes_short (value : UInt16) :
    (short value).bytes = [0, 0] ++ beBytes 2 value.toNat ++ base.drop 4 := rfl

@[simp] theorem bytes_medium (value : UInt32) :
    (medium value).bytes = beBytes 4 value.toNat ++ base.drop 4 := rfl

/-- The 16-bit short value, if this UUID is inside the base range. -/
def asShort (u : Uuid) : Option UInt16 :=
  if (u.bytes.set 2 0).set 3 0 = base ∧ u.bytes.take 2 = [0, 0] then
    some (UInt16.ofNat (beNat ((u.bytes.drop 2).take 2)))
  else none

theorem eq_of_fields {u v : Uuid} (hbytes : u.bytes = v.bytes) (hwidth : u.width = v.width) :
    u = v := by
  obtain ⟨_, _, _, _, _⟩ := u
  obtain ⟨_, _, _, _, _⟩ := v
  simp only at hbytes hwidth
  subst hbytes hwidth
  rfl

/-! ## What the width says about the bytes -/

theorem bytes_of_short {u : Uuid} (h : u.width = .short) :
    ∃ hi lo, u.bytes = [0, 0, hi, lo] ++ base.drop 4 := by
  have hlength : ((u.bytes.drop 2).take 2).length = 2 := by
    rw [List.length_take, List.length_drop, u.length_bytes]
    rfl
  obtain ⟨hi, lo, hmiddle⟩ := List.length_eq_two.mp hlength
  refine ⟨hi, lo, ?_⟩
  calc u.bytes = u.bytes.take 2 ++ ((u.bytes.drop 2).take 2 ++ (u.bytes.drop 2).drop 2) := by
        rw [List.take_append_drop, List.take_append_drop]
    _ = [0, 0, hi, lo] ++ base.drop 4 := by
        rw [u.take_of_short h, hmiddle, List.drop_drop,
          u.drop_of_ne_long (by rw [h]; exact UuidWidth.noConfusion)]
        rfl

theorem eq_short {u : Uuid} (h : u.width = .short) :
    ∃ value, u.asShort = some value ∧ u = short value := by
  obtain ⟨hi, lo, hbytes⟩ := bytes_of_short h
  refine ⟨UInt16.ofNat (beNat [hi, lo]), ?_, eq_of_fields ?_ h⟩
  · rw [asShort, hbytes]
    exact if_pos ⟨rfl, rfl⟩
  · have hpair : beBytes 2 (beNat [hi, lo]) = [hi, lo] := beBytes_beNat rfl
    rw [hbytes, bytes_short, toNat_ofNat_beNat_two rfl, hpair]
    rfl

/-- A medium UUID is the medium UUID of the number in its first four bytes. -/
theorem eq_medium {u : Uuid} (h : u.width = .medium) :
    u = medium (UInt32.ofNat (beNat (u.bytes.take 4))) := by
  have hlength : (u.bytes.take 4).length = 4 := by
    rw [List.length_take, u.length_bytes]
    rfl
  apply eq_of_fields _ h
  calc u.bytes = u.bytes.take 4 ++ u.bytes.drop 4 := (List.take_append_drop 4 u.bytes).symm
    _ = (medium (UInt32.ofNat (beNat (u.bytes.take 4)))).bytes := by
        rw [bytes_medium, toNat_ofNat_beNat_four hlength, beBytes_beNat hlength,
          u.drop_of_ne_long (by rw [h]; exact UuidWidth.noConfusion)]

theorem eq_long {u : Uuid} (h : u.width = .long) : u = long u.bytes u.length_bytes :=
  eq_of_fields rfl h

end Uuid

end Castaway.Sdp
