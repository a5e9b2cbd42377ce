import Castaway.Lib.Bytes
import Castaway.Lib.Framing
import Mathlib.Data.List.Forall2

/-!
# CASTv2 frames

A frame is a message behind its length in four bytes.  `pump` is the read loop
of a connection: what comes is buffered, a buffer beyond `maxFrame` ends the
connection, and the whole frames are taken off the front.  How protobuf writes a
message is `Protobuf`.
-/

namespace Castaway.Cast

open List

structure Protobuf (Msg : Type) where
  encode : Msg → Bytes
  decode : Bytes → Except String Msg
  decode_encode : ∀ msg, decode (encode msg) = .ok msg

inductive CastError where
  | encode (reason : String)
  | decode (reason : String)
  | io (reason : String)

def maxFrame : ℕ := 2 ^ 20

/-- What one read brings at most. -/
def maxRead : ℕ := 4096

namespace Protobuf

variable {Msg : Type} (proto : Protobuf Msg)

def frame (msg : Msg) : Except CastError Bytes :=
  let body := proto.encode msg
  if body.length < 2 ^ 32 then .ok (beBytes 4 body.length ++ body)
  else .error (.encode "frame too large")

/-- A message off the front of the buffer, and how many bytes it took. -/
def tryDecode (buf : Bytes) : Except CastError (Option (Msg × ℕ)) :=
  if buf.length < 4 then .ok none
  else
    let total := 4 + beNat (buf.take 4)
    if buf.length < total then .ok none
    else
      match proto.decode ((buf.take total).drop 4) with
      | .error e => .error (.decode e)
      | .ok msg => .ok (some (msg, total))

def next (buf : Bytes) : Next UInt8 Msg Unit CastError :=
  match proto.tryDecode buf with
  | .error e => .failed e
  | .ok none => .wait
  | .ok (some (msg, consumed)) => .took () [msg] (buf.drop consumed)

variable {proto} {buf more rest wire : Bytes} {msg : Msg} {msgs : List Msg} {wires : List Bytes}

/-- More bytes behind a whole frame do not change what is read. -/
theorem tryDecode_append (h : proto.tryDecode buf ≠ .ok none) (more : Bytes) :
    proto.tryDecode (buf ++ more) = proto.tryDecode buf ∧ 4 + beNat (buf.take 4) ≤ buf.length := by
  unfold tryDecode at h ⊢
  by_cases hheader : buf.length < 4
  · rw [if_pos hheader] at h
    exact absurd rfl h
  · rw [if_neg hheader] at h
    by_cases hbody : buf.length < 4 + beNat (buf.take 4)
    · rw [if_pos hbody] at h
      exact absurd rfl h
    · rw [if_neg hheader, if_neg hbody, if_neg (by simp; omega),
        take_append_of_le_length (by omega), if_neg (by simp; omega),
        take_append_of_le_length (by omega)]
      exact ⟨rfl, by omega⟩

theorem consumed_of_tryDecode {consumed : ℕ}
    (h : proto.tryDecode buf = .ok (some (msg, consumed))) :
    consumed = 4 + beNat (buf.take 4) := by
  unfold tryDecode at h
  split at h
  · cases h
  · dsimp only at h
    split at h
    · cases h
    · split at h
      · cases h
      · cases h
        rfl

variable (proto)

def frames : Framing UInt8 Msg Unit CastError where
  next := fun _ => proto.next
  shrinks := fun {s buf s' out rest} h => by
    unfold next at h
    split at h
    · cases h
    · cases h
    · rename_i hdecode
      cases h
      have hwhole := (tryDecode_append (by rw [hdecode]; simp) []).2
      rw [consumed_of_tryDecode hdecode, length_drop]
      omega
  took_append := fun {s buf s' out rest} h more => by
    unfold next at h ⊢
    split at h
    · cases h
    · cases h
    · rename_i hdecode
      cases h
      obtain ⟨hsame, hwhole⟩ := tryDecode_append (by rw [hdecode]; simp) more
      rw [hsame, hdecode]
      rw [← consumed_of_tryDecode hdecode] at hwhole
      simp only [drop_append_of_le_length hwhole]
  failed_append := fun {s buf e} h more => by
    unfold next at h ⊢
    split at h
    · rename_i hdecode
      rw [(tryDecode_append (by rw [hdecode]; simp) more).1, hdecode]
      exact h
    · cases h
    · cases h

/-- One read of the socket. -/
def read (stream : Stream UInt8 Unit CastError) (chunk : Bytes) :
    List Msg × Stream UInt8 Unit CastError :=
  match stream with
  | .broken e => ([], .broken e)
  | .running () buf =>
    if maxFrame < (buf ++ chunk).length then ([], .broken (.io "frame exceeds 1048576 bytes"))
    else proto.frames.drain () (buf ++ chunk)

def pump : Stream UInt8 Unit CastError → List Bytes → List Msg × Stream UInt8 Unit CastError
  | stream, [] => ([], stream)
  | stream, chunk :: chunks =>
    ((proto.read stream chunk).1 ++ (pump (proto.read stream chunk).2 chunks).1,
      (pump (proto.read stream chunk).2 chunks).2)

variable {proto}

theorem exists_header (h : proto.frame msg = .ok wire) : ∃ head, wire = head ++ proto.encode msg ∧
    head.length = 4 ∧ beNat head = (proto.encode msg).length := by
  unfold frame at h
  dsimp only at h
  split at h
  · cases h
    exact ⟨_, rfl, length_beBytes .., beNat_beBytes ‹_›⟩
  · cases h

theorem next_cut (h : proto.frame msg = .ok wire) (hcut : buf ++ rest = wire ++ more)
    (hshort : buf.length < wire.length) : proto.next buf = .wait := by
  obtain ⟨head, rfl, hlength, hnat⟩ := exists_header h
  unfold next tryDecode
  by_cases hheader : buf.length < 4
  · rw [if_pos hheader]
  · have htake : buf.take 4 = head := by
      have h4 := congrArg (List.take 4) hcut
      rwa [take_append_of_le_length (by omega), append_assoc,
        take_append_of_le_length (by omega), take_of_length_le hlength.le] at h4
    rw [length_append] at hshort
    rw [if_neg hheader, htake, if_pos (by omega)]

theorem next_whole (h : proto.frame msg = .ok wire) (more : Bytes) :
    proto.next (wire ++ more) = .took () [msg] more := by
  obtain ⟨head, rfl, hlength, hnat⟩ := exists_header h
  have htotal : 4 + (proto.encode msg).length = (head ++ proto.encode msg).length := by
    simp [hlength]
  unfold next tryDecode
  rw [if_neg (by simp; omega), append_assoc, take_append_of_le_length (by omega),
    take_of_length_le hlength.le, hnat, ← append_assoc, htotal, if_neg (by simp),
    take_left, drop_left' hlength, proto.decode_encode]
  simp only [drop_left]

/-- What is drained of some bytes of the wire, and what is left of them. -/
theorem drain_prefix (h : List.Forall₂ (fun msg wire => proto.frame msg = .ok wire) msgs wires)
    (hcut : buf ++ rest = wires.flatten) : ∃ k buf',
      proto.frames.drain () buf = (msgs.take k, .running () buf') ∧
        buf' ++ rest = (wires.drop k).flatten ∧
        ∀ wire ∈ (wires.drop k).head?, buf'.length < wire.length := by
  induction h generalizing buf with
  | nil =>
    obtain ⟨rfl, rfl⟩ := append_eq_nil_iff.mp hcut
    exact ⟨0, [], Framing.drain_of_wait rfl, rfl, fun _ h => nomatch h⟩
  | @cons msg wire msgs wires hframe _ ih =>
    by_cases hshort : buf.length < wire.length
    · refine ⟨0, buf, Framing.drain_of_wait (next_cut hframe hcut hshort), hcut, ?_⟩
      rintro _ ⟨⟩
      exact hshort
    · obtain ⟨tail, rfl⟩ : wire <+: buf :=
        prefix_of_prefix_length_le ⟨_, hcut.symm⟩ (prefix_append ..)
          (Nat.not_lt.mp hshort)
      rw [append_assoc, flatten_cons] at hcut
      obtain ⟨k, buf', hdrain, hrest, hshort'⟩ := ih (append_cancel_left hcut)
      refine ⟨k + 1, buf', ?_, hrest, hshort'⟩
      rw [Framing.drain_of_took (F := proto.frames) (next_whole hframe tail), hdrain]
      rfl

theorem pump_prefix
    (h : List.Forall₂ (fun msg wire => proto.frame msg = .ok wire) msgs wires)
    (hfits : ∀ wire ∈ wires, wire.length + maxRead ≤ maxFrame + 1) {chunks : List Bytes}
    (hread : ∀ chunk ∈ chunks, chunk.length ≤ maxRead)
    (hcut : buf ++ (chunks.flatten ++ rest) = wires.flatten)
    (hbuf : ∀ wire ∈ wires.head?, buf.length < wire.length) : ∃ k buf',
      proto.pump (.running () buf) chunks = (msgs.take k, .running () buf') ∧
        buf' ++ rest = (wires.drop k).flatten ∧
        ∀ wire ∈ (wires.drop k).head?, buf'.length < wire.length := by
  induction chunks generalizing buf msgs wires with
  | nil => exact ⟨0, buf, rfl, hcut, hbuf⟩
  | cons chunk chunks ih =>
    have hroom : ¬ maxFrame < (buf ++ chunk).length := by
      cases wires with
      | nil =>
        have hnil : buf ++ chunk = [] := by simp_all
        simp [hnil]
      | cons wire wires =>
        have hshort := hbuf wire rfl
        have hwire := hfits wire mem_cons_self
        have hchunk := hread chunk mem_cons_self
        rw [length_append]
        omega
    rw [flatten_cons, append_assoc, ← append_assoc] at hcut
    obtain ⟨k, buf₁, hdrain, hcut₁, hshort₁⟩ := drain_prefix h hcut
    obtain ⟨k', buf₂, hpump, hcut₂, hshort₂⟩ := ih (forall₂_drop k h)
      (fun wire hwire => hfits wire (mem_of_mem_drop hwire))
      (fun chunk hchunk => hread chunk (mem_cons_of_mem _ hchunk)) hcut₁ hshort₁
    rw [drop_drop] at hcut₂ hshort₂
    refine ⟨k + k', buf₂, ?_, hcut₂, hshort₂⟩
    rw [pump, read, if_neg hroom, hdrain, hpump, take_add]

/-- **CASTv2 messages survive any cut of the stream.**  After some reads of it,
exactly the messages whose last byte has come are out, in their order. -/
theorem messages_survive (proto : Protobuf Msg) {msgs : List Msg} {wires chunks : List Bytes}
    (rest : Bytes) (h : List.Forall₂ (fun msg wire => proto.frame msg = .ok wire) msgs wires)
    (hfits : ∀ wire ∈ wires, wire.length + maxRead ≤ maxFrame + 1)
    (hread : ∀ chunk ∈ chunks, chunk.length ≤ maxRead)
    (hcut : chunks.flatten ++ rest = wires.flatten) : ∃ k buf,
      proto.pump (.running () []) chunks = (msgs.take k, .running () buf) ∧
        buf ++ rest = (wires.drop k).flatten ∧
        ∀ wire ∈ (wires.drop k).head?, buf.length < wire.length := by
  refine pump_prefix h hfits hread hcut ?_
  cases h with
  | nil => rintro _ ⟨⟩
  | cons hframe _ =>
    rintro _ ⟨⟩
    obtain ⟨head, rfl, hlength, -⟩ := exists_header hframe
    simp only [length_append, length_nil]
    omega

def bare : Protobuf Bytes := ⟨id, .ok, fun _ => rfl⟩

/-- A message of two bytes in two reads, and the first byte of the next. -/
theorem messages_survive_cut : ∃ k buf,
    bare.pump (.running () []) [[0, 0, 0, 2, 8], [0, 0]] =
        (List.take k [[8, 0], []], .running () buf) ∧
      buf ++ [0, 0, 0] = (List.drop k [[0, 0, 0, 2, 8, 0], [0, 0, 0, 0]]).flatten ∧
      ∀ wire ∈ (List.drop k [[0, 0, 0, 2, 8, 0], ([0, 0, 0, 0] : Bytes)]).head?,
        buf.length < wire.length :=
  messages_survive bare [0, 0, 0] (.cons rfl (.cons rfl .nil)) (by decide) (by decide) rfl

end Protobuf

end Castaway.Cast
