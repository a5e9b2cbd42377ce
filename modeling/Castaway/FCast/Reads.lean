import Castaway.FCast.Providers
import Castaway.Lib.Runs

/-!
# Companion reads

A read is issued under a request id, its request is queued to the connection
that holds the provider id of the resource, and the parts of the answer are put
together as they come.  `Routed` keeps beside the receiver what a run says of
its reads: the connection that was asked, the parts that came in and who sent
them, and the ids drawn and answers given.

**The headline result** `reads_routed`: as long as nobody asks for a second
provider id, and nobody but the holder of a provider id answers its reads, the
table of ids is exact, a read is completed with the parts its own connection
sent, in order, no read is answered twice, and a disconnect abandons the reads
of that connection and no others.  `reads_misrouted` shows both conditions
broken.
-/

namespace Castaway.FCast

open Function List

/-! ## Parts -/

/-- Parts with the bytes they carry, each numbered as it came and all claiming
to be of `total`. -/
structure InOrder (parts : List ResourcePart) (total : ℕ) (bytes : Bytes) : Prop where
  part : ∀ (i : ℕ) (part : ResourcePart), parts[i]? = some part → part.part.toNat = i
  total : ∀ part ∈ parts, part.total.toNat = total
  bytes : ∃ chunks : List Bytes, parts.map ResourcePart.result = chunks.map ResourceResult.data ∧
    bytes = chunks.flatten

/-- The parts are an answer from its first part to its last, and `bytes` all
they carry. -/
def Whole (parts : List ResourcePart) (bytes : Bytes) : Prop := InOrder parts parts.length bytes

/-- A read is as far as the parts that came in for it. -/
structure Gathered (parts : List ResourcePart) (read : ResourceRead) : Prop where
  next : read.next.toNat = parts.length
  fresh : read.total = none → parts = []
  inOrder : ∀ total, read.total = some total →
    parts.length < total.toNat ∧ InOrder parts total.toNat read.data
  bytes : parts = [] → read.data = []

theorem InOrder.nil (total : ℕ) : InOrder [] total [] :=
  ⟨fun _ _ h => by simp at h, fun _ h => absurd h not_mem_nil, [], rfl, rfl⟩

variable {parts : List ResourcePart} {part : ResourcePart}

theorem InOrder.concat {total : ℕ} {bytes chunk : Bytes}
    (h : InOrder parts total bytes) (hpart : part.part.toNat = parts.length)
    (htotal : part.total.toNat = total) (hchunk : part.result = .data chunk) :
    InOrder (parts ++ [part]) total (bytes ++ chunk) where
  part := fun i other hother => by
    rcases Nat.lt_trichotomy i parts.length with hlt | rfl | hgt
    · rw [getElem?_append_left hlt] at hother
      exact h.part i other hother
    · rw [getElem?_concat_length] at hother
      cases hother
      exact hpart
    · rw [getElem?_eq_none (by simp; omega)] at hother
      cases hother
  total := fun other hother => by
    rcases mem_append.mp hother with hold | hnew
    · exact h.total other hold
    · cases mem_singleton.mp hnew
      exact htotal
  bytes := by
    obtain ⟨chunks, hresults, rfl⟩ := h.bytes
    refine ⟨chunks ++ [chunk], ?_, ?_⟩
    · rw [map_append, map_append, hresults, map_singleton, hchunk,
        map_singleton]
    · rw [flatten_append, flatten_singleton]

theorem gathered_new : Gathered [] .new where
  next := rfl
  fresh := fun _ => rfl
  inOrder := fun _ h => by cases h
  bytes := fun _ => rfl

variable {read read' : ResourceRead}

theorem push_ok {progress : ReadProgress}
    (h : read.push part = .ok (read', progress)) (hfound : progress ≠ .notFound) :
    ∃ chunk, part.result = .data chunk ∧ part.part = read.next ∧ part.total ≠ 0 ∧
      (∀ total, read.total = some total → total = part.total) ∧
      ((progress = .complete (read.data ++ chunk) ∧
          (if read.next = 255 then 255 else read.next + 1) = part.total) ∨
        (progress = .more ∧ (if read.next = 255 then 255 else read.next + 1) ≠ part.total ∧
          read' = ⟨some part.total, if read.next = 255 then 255 else read.next + 1,
            read.data ++ chunk⟩)) := by
  unfold ResourceRead.push at h
  split at h
  · cases h
    exact absurd rfl hfound
  next chunk hchunk =>
    split at h
    · cases h
    next hzero =>
      split at h
      · cases h
      next total htotal =>
        have hsame : total = part.total ∧
            ∀ known, read.total = some known → known = part.total := by
          unfold ResourceRead.checkTotal at htotal
          split at htotal
          next hnone =>
            cases htotal
            refine ⟨rfl, fun known hknown => ?_⟩
            rw [hnone] at hknown
            cases hknown
          next known hknown =>
            split at htotal
            · cases htotal
            next hequal =>
              cases htotal
              have hequal := Decidable.not_not.mp hequal
              refine ⟨hequal, fun other hother => ?_⟩
              rw [hknown] at hother
              cases hother
              exact hequal
        obtain ⟨rfl, hknown⟩ := hsame
        split at h
        · cases h
        next hnext =>
          have hnext := Decidable.not_not.mp hnext
          dsimp only at h
          generalize (if read.next = 255 then (255 : UInt8) else read.next + 1) = following at h ⊢
          split at h
          next hlast =>
            cases h
            exact ⟨chunk, hchunk, hnext, hzero, hknown, .inl ⟨rfl, hlast⟩⟩
          next hmore =>
            cases h
            exact ⟨chunk, hchunk, hnext, hzero, hknown, .inr ⟨rfl, hmore, rfl⟩⟩

section

variable (h : Gathered parts read)
include h

/-- The parts that came in, as an answer of as many parts as the next one
claims. -/
theorem Gathered.inOrder_of {total : UInt8} (hzero : total ≠ 0)
    (htotal : ∀ known, read.total = some known → known = total) :
    parts.length < total.toNat ∧ InOrder parts total.toNat read.data := by
  cases hknown : read.total with
  | none =>
    obtain rfl := h.fresh hknown
    rw [h.bytes rfl]
    exact ⟨Nat.pos_of_ne_zero fun heq => hzero (UInt8.toNat_inj.mp heq), .nil _⟩
  | some known =>
    obtain rfl := htotal known hknown
    exact h.inOrder known hknown

/-- The count of parts does not reach its ceiling before the last part. -/
theorem Gathered.next_succ {total : UInt8} (hlt : parts.length < total.toNat) :
    (if read.next = 255 then 255 else read.next + 1).toNat = parts.length + 1 := by
  have hbyte := total.toNat_lt
  have hnext := h.next
  have hne : read.next ≠ 255 := by
    intro heq
    rw [heq] at hnext
    have h255 : (255 : UInt8).toNat = 255 := rfl
    omega
  rw [if_neg hne, UInt8.toNat_add, hnext]
  have hone : (1 : UInt8).toNat = 1 := rfl
  omega

theorem Gathered.push_more (hpush : read.push part = .ok (read', .more)) :
    Gathered (parts ++ [part]) read' := by
  obtain ⟨chunk, hchunk, hpart, hzero, htotal, hdone | ⟨-, hmore, rfl⟩⟩ :=
    push_ok hpush (fun h => by cases h)
  · cases hdone.1
  · obtain ⟨hlt, hinOrder⟩ := h.inOrder_of hzero htotal
    have hsucc := h.next_succ hlt
    refine ⟨?_, fun hnone => (by cases hnone), fun total hsome => ?_, fun hnil => ?_⟩
    · rw [hsucc, length_append, length_singleton]
    · cases hsome
      refine ⟨?_, hinOrder.concat (by rw [hpart, h.next]) rfl hchunk⟩
      have hne : parts.length + 1 ≠ part.total.toNat := by
        rw [← hsucc]
        exact fun heq => hmore (UInt8.toNat_inj.mp heq)
      rw [length_append, length_singleton]
      omega
    · exact absurd hnil (by simp)

theorem Gathered.push_complete {bytes : Bytes}
    (hpush : read.push part = .ok (read', .complete bytes)) : Whole (parts ++ [part]) bytes := by
  obtain ⟨chunk, hchunk, hpart, hzero, htotal, ⟨hbytes, hlast⟩ | hmore⟩ :=
    push_ok hpush (fun h => by cases h)
  · obtain ⟨hlt, hinOrder⟩ := h.inOrder_of hzero htotal
    have hlength : part.total.toNat = (parts ++ [part]).length := by
      rw [← hlast, h.next_succ hlt, length_append, length_singleton]
    cases hbytes
    rw [Whole, ← hlength]
    exact hinOrder.concat (by rw [hpart, h.next]) rfl hchunk
  · cases hmore.1

end

namespace Inner

variable {shared : Shared} {s t : Inner} {action : Action} {id : ℕ} {provider : UInt16}
  {request other : UInt32} {read after : PendingRead}

/-! ## Steps that keep to the rules -/

/-- What a command of connection `id` must keep to: a connection asks for a
provider id once, and while one is free; and who answers a pending read holds
its provider id. -/
def Keeps (inner : Inner) (id : ℕ) : V4Command → Prop
  | .companionHello => inner.provider? id = none ∧ ∃ free, free ∉ inner.providers
  | .companionInfo request _ _ => ∀ url, inner.reads request = some ⟨url, .info⟩ →
      inner.provider? id = some url.provider
  | .companionData part => ∀ url read, inner.reads part.requestId = some ⟨url, .data read⟩ →
      inner.provider? id = some url.provider
  | _ => True

def Proper (inner : Inner) : Action → Prop
  | .applyCommand _ id => ∀ command, inner.carried id = some command → inner.Keeps id command
  | _ => True

/-- Steps that change nothing but reads, request ids and who waits. -/
structure TablesOnly (s t : Inner) : Prop where
  peers : t.peers = s.peers
  providers : t.providers = s.providers
  leaving : t.leaving = s.leaving
  nextPeer : t.nextPeer = s.nextPeer

theorem TablesOnly.answer (h : s.TablesOnly t) (request : UInt32) (answer : Answer) :
    s.TablesOnly (t.answer request answer).1 := by
  unfold Inner.answer
  split <;> exact ⟨h.peers, h.providers, h.leaving, h.nextPeer⟩

theorem tablesOnly_deliverInfo (s : Inner) (request : UInt32) (contentType : String)
    (size : Option UInt64) : s.TablesOnly (s.deliverInfo request contentType size).1 := by
  unfold deliverInfo
  split
  · apply TablesOnly.answer
    exact ⟨rfl, rfl, rfl, rfl⟩
  · exact ⟨rfl, rfl, rfl, rfl⟩
  · exact ⟨rfl, rfl, rfl, rfl⟩

theorem tablesOnly_deliverData (s : Inner) (part : ResourcePart) :
    s.TablesOnly (s.deliverData part).1 := by
  unfold deliverData
  split
  · exact ⟨rfl, rfl, rfl, rfl⟩
  · exact ⟨rfl, rfl, rfl, rfl⟩
  · split
    · exact ⟨rfl, rfl, rfl, rfl⟩
    · apply TablesOnly.answer
      exact ⟨rfl, rfl, rfl, rfl⟩
    · apply TablesOnly.answer
      exact ⟨rfl, rfl, rfl, rfl⟩
    · apply TablesOnly.answer
      exact ⟨rfl, rfl, rfl, rfl⟩

theorem Provided.tables (h : s.Provided) (ht : s.TablesOnly t) : t.Provided := by
  refine h.keep (fun id => ?_) (fun id peer hpeer => ⟨peer, ht.peers ▸ hpeer⟩)
    (fun id peer hpeer => h.typed id peer (ht.peers ▸ hpeer)) ht.providers ht.leaving ht.nextPeer
  rw [Inner.provider?, Inner.provider?, ht.peers]

def Action.bookkeeping : Action → Bool
  | .reserve | .register _ _ _ | .timeOut _ | .forget _ => true
  | _ => false

/-- They change those tables, and at most send a request. -/
theorem bookkeeping_step (action : Action) (h : Action.bookkeeping action = true) :
    ∃ u, s.TablesOnly u ∧ u.Calm (s.step shared action).1 := by
  have hself : s.TablesOnly s := ⟨rfl, rfl, rfl, rfl⟩
  cases action with
  | reserve => exact ⟨(s.step shared .reserve).1, ⟨rfl, rfl, rfl, rfl⟩, .refl _⟩
  | register request url ask =>
    simp only [Inner.step, register]
    split
    · have herased : s.TablesOnly { s with reserved := s.reserved.erase request } :=
        ⟨rfl, rfl, rfl, rfl⟩
      have hreplaced := herased.answer request .wentAway
      split
      · exact ⟨_, herased, .refl _⟩
      · refine ⟨_, ?_, .sendTo _ _⟩
        exact ⟨hreplaced.peers, hreplaced.providers, hreplaced.leaving, hreplaced.nextPeer⟩
    · exact ⟨s, hself, .refl s⟩
  | timeOut request =>
    simp only [Inner.step]
    split
    · split
      · refine ⟨_, ?_, .refl _⟩
        apply TablesOnly.answer
        exact ⟨rfl, rfl, rfl, rfl⟩
      · exact ⟨s, hself, .refl s⟩
    · exact ⟨s, hself, .refl s⟩
  | forget request =>
    simp only [Inner.step]
    split
    · have herased : s.TablesOnly { s with expired := s.expired.erase request } :=
        ⟨rfl, rfl, rfl, rfl⟩
      have hremoved := herased.answer request .wentAway
      refine ⟨_, ?_, .refl _⟩
      exact ⟨hremoved.peers, hremoved.providers, hremoved.leaving, hremoved.nextPeer⟩
    · exact ⟨s, hself, .refl s⟩
  | _ => cases h

/-- **One step** that keeps to the rules leaves the table of ids exact. -/
theorem Provided.step (h : s.Provided) {action : Action} (hproper : s.Proper action) :
    (s.step shared action).1.Provided := by
  have hbookkeeping : Action.bookkeeping action = true → (s.step shared action).1.Provided := by
    intro haction
    obtain ⟨u, htables, hcalm⟩ := @bookkeeping_step shared s action haction
    exact (h.tables htables).calm hcalm
  cases hroutes : Action.routes action with
  | false => exact h.calm (calm_step action hroutes).1
  | true =>
    cases action with
    | connectJson => exact h.connect rfl rfl
    | connectV4 now =>
      have hcalm := Peer.Calm.sendFrames shared (.new (.v4 (.new now))) (s.introduction shared)
      exact h.connect (sendFrames_actor _ _ _) hcalm.provider
    | applyCommand env id =>
      have htaken := h.calm (calm_taken s id)
      rcases @applyCommand_cases shared s env id with ⟨-, hcalm, -⟩ | ⟨hcarried, hhello⟩ |
        ⟨request, contentType, size, -, hinfo⟩ | ⟨part, -, hdata⟩
      · exact h.calm hcalm
      · obtain ⟨hfirst, hfree⟩ := hproper _ hcarried
        obtain ⟨peer, hpeer, hactor⟩ := carried_eq_some.mp hcarried
        have hself : (s.taken id).peers id = some { peer with actor := .reading } := by
          rw [taken, onPeer_self, hpeer]
          rfl
        simp only [Inner.step, hhello]
        exact htaken.hello hself (h.typed id peer hpeer _ hactor)
          (((calm_taken s id).provider? id).trans hfirst) hfree
      · simp only [Inner.step, hinfo]
        exact htaken.tables (tablesOnly_deliverInfo ..)
      · simp only [Inner.step, hdata]
        exact htaken.tables (tablesOnly_deliverData ..)
    | leave id => exact h.leave id
    | abandon id => exact h.abandon id
    | release id => exact h.release id
    | reserve | register request url ask | timeOut request | forget request =>
      exact hbookkeeping rfl
    | _ => cases hroutes

/-! ## What a step does to a read -/

/-- The read that a step issues, and the connection its request is queued to. -/
def registers (inner : Inner) : Action → Option (UInt32 × ℕ)
  | .register request url _ =>
    if request ∈ inner.reserved then
      (inner.providerPeer url.provider).map fun owner => (request, owner)
    else none
  | _ => none

/-- The part that a step delivers, and the connection it came from. -/
def delivers (inner : Inner) : Action → Option (ℕ × ResourcePart)
  | .applyCommand _ id =>
    match inner.carried id with
    | some (.companionData part) => some (id, part)
    | _ => none
  | _ => none

theorem delivers_eq_some {part : ResourcePart} :
    s.delivers action = some (id, part) ↔
      ∃ env, action = .applyCommand env id ∧ s.carried id = some (.companionData part) := by
  constructor
  · intro h
    cases action with
    | applyCommand env other =>
      rw [delivers] at h
      split at h
      next hcarried =>
        cases h
        exact ⟨env, rfl, hcarried⟩
      · cases h
    | _ => cases h
  · rintro ⟨env, rfl, hcarried⟩
    rw [delivers, hcarried]

theorem providerPeer_some (h : s.providerPeer provider = some id) :
    s.provider? id = some provider := by
  have hfound := find?_some h
  exact beq_iff_eq.mp hfound

@[simp] theorem reserved_answer (request : UInt32) (answer : Answer) :
    (s.answer request answer).1.reserved = s.reserved := by
  unfold Inner.answer
  split <;> rfl

@[simp] theorem reads_answer (request : UInt32) (answer : Answer) :
    (s.answer request answer).1.reads = s.reads := by
  unfold Inner.answer
  split <;> rfl

theorem reads_setRead_self (request : UInt32) (read : Option PendingRead) :
    (s.setRead request read).reads request = read := update_self ..

theorem reads_setRead_of_ne (h : other ≠ request)
    (read : Option PendingRead) : (s.setRead request read).reads other = s.reads other :=
  update_of_ne h ..

theorem reads_setRead_none (h : (s.setRead request none).reads other = some read) :
    s.reads other = some read ∧ other ≠ request := by
  have hne : other ≠ request := by
    rintro rfl
    rw [reads_setRead_self] at h
    cases h
  exact ⟨by rwa [reads_setRead_of_ne hne] at h, hne⟩

theorem reads_deliverInfo {contentType : String} {size : Option UInt64}
    (h : (s.deliverInfo request contentType size).1.reads other = some read) :
    s.reads other = some read := by
  unfold deliverInfo at h
  split at h
  · rw [reads_answer] at h
    exact (reads_setRead_none h).1
  · exact h
  · exact h

theorem reads_deliverData {part : ResourcePart}
    (h : (s.deliverData part).1.reads request = some after) :
    (s.reads request = some after ∧ (part.requestId = request → after.kind = .info)) ∨
    ∃ url read read', part.requestId = request ∧ s.reads request = some ⟨url, .data read⟩ ∧
      read.push part = .ok (read', .more) ∧ after = ⟨url, .data read'⟩ := by
  unfold deliverData at h
  split at h
  next hnone =>
    refine .inl ⟨h, fun heq => ?_⟩
    rw [heq, h] at hnone
    cases hnone
  next url hinfo =>
    refine .inl ⟨h, fun heq => ?_⟩
    rw [heq, h] at hinfo
    cases hinfo
    rfl
  next url read hread =>
    have hended : (s.setRead part.requestId none).reads request = some after →
        s.reads request = some after ∧ (part.requestId = request → after.kind = .info) := by
      intro hafter
      obtain ⟨hsome, hne⟩ := reads_setRead_none hafter
      exact ⟨hsome, fun heq => absurd heq.symm hne⟩
    split at h
    next read' hpush =>
      by_cases heq : request = part.requestId
      · subst heq
        rw [reads_setRead_self] at h
        cases h
        exact .inr ⟨url, read, read', rfl, hread, hpush, rfl⟩
      · rw [reads_setRead_of_ne heq] at h
        exact .inl ⟨h, fun hsame => absurd hsame.symm heq⟩
    · rw [reads_answer] at h
      exact .inl (hended h)
    · rw [reads_answer] at h
      exact .inl (hended h)
    · rw [reads_answer] at h
      exact .inl (hended h)

/-- The read of `request` was there before the action and took no part in it. -/
def StaysRead (s : Inner) (action : Action) (request : UInt32) (after : PendingRead) : Prop :=
  s.reads request = some after ∧ (∀ owner, s.registers action ≠ some (request, owner)) ∧
    ∀ id part, s.delivers action = some (id, part) → part.requestId = request → after.kind = .info

/-- The action issued it. -/
def IssuesRead (s : Inner) (action : Action) (request : UInt32) (after : PendingRead) : Prop :=
  ∃ owner url, ∃ ask : Ask, s.registers action = some (request, owner) ∧
    s.provider? owner = some url.provider ∧ after = ⟨url, ask.pending⟩

/-- The action brought it a part, and more is to come. -/
def FeedsRead (s : Inner) (action : Action) (request : UInt32) (after : PendingRead) : Prop :=
  ∃ id part url read read', s.delivers action = some (id, part) ∧ part.requestId = request ∧
    s.reads request = some ⟨url, .data read⟩ ∧ read.push part = .ok (read', .more) ∧
    after = ⟨url, .data read'⟩

theorem StaysRead.of_quiet
    (hread : s.reads request = some after) (hregisters : s.registers action = none)
    (hdelivers : s.delivers action = none) : s.StaysRead action request after := by
  rw [StaysRead, hregisters, hdelivers]
  exact ⟨hread, fun _ h => (by cases h), fun _ _ h => (by cases h)⟩

theorem reads_applyCommand {env : Env}
    (h : (s.step shared (.applyCommand env id)).1.reads request = some after) :
    s.StaysRead (.applyCommand env id) request after ∨
      s.FeedsRead (.applyCommand env id) request after := by
  have hregisters : ∀ owner, s.registers (.applyCommand env id) ≠ some (request, owner) :=
    fun _ h => (by cases h)
  simp only [step] at h
  have hreads : (s.taken id).reads = s.reads := rfl
  rcases @applyCommand_cases shared s env id with ⟨hnot, hcalm, -⟩ | ⟨hcarried, hhello⟩ |
    ⟨_, _, _, hcarried, hinfo⟩ | ⟨part, hcarried, hdata⟩
  · rw [hcalm.rest] at h
    refine .inl ⟨h, hregisters, fun other part hdelivers => ?_⟩
    obtain ⟨env', heq, hcarried⟩ := delivers_eq_some.mp hdelivers
    cases heq
    exact absurd hcarried (hnot part)
  · rw [hhello] at h
    refine .inl (.of_quiet h rfl ?_)
    rw [delivers, hcarried]
  · rw [hinfo] at h
    refine .inl (.of_quiet (hreads ▸ reads_deliverInfo h) rfl ?_)
    rw [delivers, hcarried]
  · have hdelivers : s.delivers (.applyCommand env id) = some (id, part) :=
      delivers_eq_some.mpr ⟨env, rfl, hcarried⟩
    rw [hdata] at h
    rcases reads_deliverData h with ⟨hread, hkind⟩ | ⟨url, read, read', hid, hread, hpush, hafter⟩
    · refine .inl ⟨hread, hregisters, fun other part' h' hrequest => hkind ?_⟩
      cases hdelivers.symm.trans h'
      exact hrequest
    · exact .inr ⟨id, part, url, read, read', hdelivers, hid, hread, hpush, hafter⟩

theorem reads_register {request' : UInt32} {url : CompanionUrl} {ask : Ask}
    (h : (s.step shared (.register request' url ask)).1.reads request = some after) :
    s.StaysRead (.register request' url ask) request after ∨
      s.IssuesRead (.register request' url ask) request after := by
  simp only [step, register] at h
  by_cases hreserved : request' ∈ s.reserved
  · rw [if_pos hreserved] at h
    cases howner : s.providerPeer url.provider with
    | none =>
      have hnone : ({ s with reserved := s.reserved.erase request' } : Inner).providerPeer
        url.provider = none := howner
      rw [hnone] at h
      refine .inl (.of_quiet h ?_ rfl)
      rw [registers, if_pos hreserved, howner]
      rfl
    | some owner =>
      have hsome : ({ s with reserved := s.reserved.erase request' } : Inner).providerPeer
        url.provider = some owner := howner
      have hregisters : s.registers (.register request' url ask) = some (request', owner) := by
        rw [registers, if_pos hreserved, howner]
        rfl
      rw [hsome] at h
      by_cases heq : request = request'
      · subst heq
        have hnew : some ⟨url, ask.pending⟩ = some after :=
          (reads_setRead_self ..).symm.trans h
        exact .inr ⟨owner, url, ask, hregisters, providerPeer_some howner,
          (Option.some.inj hnew).symm⟩
      · have hold := (reads_setRead_of_ne heq _).symm.trans h
        have hold : s.reads request = some after := by simpa using hold
        refine .inl ⟨hold, fun owner' hboth => ?_, fun _ _ h => (by cases h)⟩
        cases hregisters.symm.trans hboth
        exact heq rfl
  · rw [if_neg hreserved] at h
    refine .inl (.of_quiet h ?_ rfl)
    rw [registers, if_neg hreserved]

/-- **A read after a step** is one that was there and took no part, one that the
step issued, or one that the step brought a part. -/
theorem reads_step (h : (s.step shared action).1.reads request = some after) :
    s.StaysRead action request after ∨ s.IssuesRead action request after ∨
      s.FeedsRead action request after := by
  cases action with
  | applyCommand env id => exact (reads_applyCommand h).imp_right .inr
  | register request' url ask => exact (reads_register h).imp_right .inl
  | leave id =>
    simp only [step, leave] at h
    refine .inl (.of_quiet ?_ rfl rfl)
    split at h
    · exact h
    · split at h <;> exact h
  | abandon id =>
    simp only [step, abandon] at h
    refine .inl (.of_quiet ?_ rfl rfl)
    split at h
    · exact h
    · dsimp only at h
      split at h
      · cases h
      · exact h
  | release id =>
    simp only [step, release] at h
    refine .inl (.of_quiet ?_ rfl rfl)
    split at h <;> exact h
  | timeOut request' =>
    simp only [step] at h
    refine .inl (.of_quiet ?_ rfl rfl)
    split at h
    · split at h
      · rwa [reads_answer] at h
      · exact h
    · exact h
  | forget request' =>
    simp only [step] at h
    refine .inl (.of_quiet ?_ rfl rfl)
    split at h
    · have hremoved := (reads_setRead_none h).1
      rwa [reads_answer] at hremoved
    · exact h
  | connectJson | connectV4 now | reserve => exact .inl (.of_quiet h rfl rfl)
  | _ =>
    refine .inl (.of_quiet ?_ rfl rfl)
    rw [(calm_step _ rfl).1.rest] at h
    exact h

/-! ### Answers -/

theorem mem_answer {answer answer' : Answer}
    (h : (other, answer') ∈ (s.answer request answer).2.answers) :
    other = request ∧ answer' = answer := by
  unfold Inner.answer at h
  split at h
  · cases mem_singleton.mp h
    exact ⟨rfl, rfl⟩
  · exact absurd h not_mem_nil

def Lost : Answer → Prop
  | .unowned _ | .wentAway | .timedOut _ => True
  | _ => False

/-- **An answer** came in a packet for a pending read, or says that none will.
-/
theorem answers_step {answer : Answer}
    (h : (request, answer) ∈ (s.step shared action).2.answers) : Lost answer ∨
    (∃ env id contentType size url, action = .applyCommand env id ∧
      s.carried id = some (.companionInfo request contentType size) ∧
      s.reads request = some ⟨url, .info⟩ ∧ answer = .info contentType size) ∨
    ∃ id part url read, s.delivers action = some (id, part) ∧ part.requestId = request ∧
      s.reads request = some ⟨url, .data read⟩ ∧
      (∀ contentType size, answer ≠ .info contentType size) ∧
      ∀ bytes, answer = .data bytes → ∃ read', read.push part = .ok (read', .complete bytes) := by
  cases action with
  | applyCommand env id =>
    simp only [step] at h
    rcases @applyCommand_cases shared s env id with ⟨-, -, hnone⟩ | ⟨-, hhello⟩ |
      ⟨request', contentType, size, hcarried, hinfo⟩ | ⟨part, hcarried, hdata⟩
    · rw [hnone] at h
      exact absurd h not_mem_nil
    · rw [hhello] at h
      exact absurd h not_mem_nil
    · rw [hinfo, deliverInfo] at h
      split at h
      next url hread =>
        obtain ⟨rfl, rfl⟩ := mem_answer h
        exact .inr (.inl ⟨env, id, contentType, size, url, rfl, hcarried, hread, rfl⟩)
      · exact absurd h not_mem_nil
      · exact absurd h not_mem_nil
    · have hdelivers : s.delivers (.applyCommand env id) = some (id, part) :=
        delivers_eq_some.mpr ⟨env, rfl, hcarried⟩
      rw [hdata, deliverData] at h
      split at h
      · exact absurd h not_mem_nil
      · exact absurd h not_mem_nil
      next url read hread =>
        split at h
        · exact absurd h not_mem_nil
        next read' bytes hpush =>
          obtain ⟨rfl, rfl⟩ := mem_answer h
          refine .inr (.inr ⟨id, part, url, read, hdelivers, rfl, hread, fun _ _ h => (by cases h),
            fun other hother => ?_⟩)
          cases hother
          exact ⟨read', hpush⟩
        · obtain ⟨rfl, rfl⟩ := mem_answer h
          exact .inr (.inr ⟨id, part, url, read, hdelivers, rfl, hread, fun _ _ h => (by cases h),
            fun _ h => (by cases h)⟩)
        · obtain ⟨rfl, rfl⟩ := mem_answer h
          exact .inr (.inr ⟨id, part, url, read, hdelivers, rfl, hread, fun _ _ h => (by cases h),
            fun _ h => (by cases h)⟩)
  | register request' url ask =>
    simp only [step, register] at h
    split at h
    · split at h
      · cases mem_singleton.mp h
        exact .inl trivial
      · obtain ⟨-, rfl⟩ := mem_answer h
        exact .inl trivial
    · exact absurd h not_mem_nil
  | abandon id =>
    simp only [step, abandon] at h
    split at h
    · exact absurd h not_mem_nil
    · obtain ⟨other, -, heq⟩ := mem_map.mp h
      cases heq
      exact .inl trivial
  | timeOut request' =>
    simp only [step] at h
    split at h
    · split at h
      · obtain ⟨-, rfl⟩ := mem_answer h
        exact .inl trivial
      · exact absurd h not_mem_nil
    · exact absurd h not_mem_nil
  | forget request' =>
    simp only [step] at h
    split at h
    · obtain ⟨-, rfl⟩ := mem_answer h
      exact .inl trivial
    · exact absurd h not_mem_nil
  | connectJson | connectV4 now | leave id | release id | reserve => exact absurd h not_mem_nil
  | _ =>
    rw [(calm_step _ rfl).2] at h
    exact absurd h not_mem_nil

/-! ### Request ids -/

def draws (inner : Inner) : Action → List UInt32
  | .reserve => [inner.nextRequest]
  | _ => []

/-- How often a request id was drawn for a read that has not been answered. -/
def outstanding (inner : Inner) (request : UInt32) : ℕ :=
  inner.reserved.count request + inner.awaited.count request

theorem outstanding_answer (request other : UInt32) (answer : Answer) :
    (s.answer request answer).1.outstanding other +
        ((s.answer request answer).2.answers.map Prod.fst).count other =
      s.outstanding other := by
  unfold Inner.answer
  split
  next hmem =>
    have hperm := (perm_cons_erase hmem).count_eq other
    show s.reserved.count other + (s.awaited.erase request).count other + [request].count other =
      s.reserved.count other + s.awaited.count other
    rw [hperm, count_cons, count_cons, count_nil]
    omega
  · rfl

theorem outstanding_setRead (request other : UInt32) (read : Option PendingRead) :
    (s.setRead request read).outstanding other = s.outstanding other := rfl

theorem outstanding_remove (request other : UInt32) (answer : Answer) :
    ((s.setRead request none).answer request answer).1.outstanding other +
        (((s.setRead request none).answer request answer).2.answers.map Prod.fst).count other =
      s.outstanding other := outstanding_answer ..

theorem outstanding_deliverInfo (request other : UInt32) (contentType : String)
    (size : Option UInt64) : (s.deliverInfo request contentType size).1.outstanding other +
        ((s.deliverInfo request contentType size).2.answers.map Prod.fst).count other =
      s.outstanding other := by
  unfold deliverInfo
  split
  · exact outstanding_remove ..
  · rfl
  · rfl

theorem outstanding_deliverData (part : ResourcePart) (other : UInt32) :
    (s.deliverData part).1.outstanding other +
        ((s.deliverData part).2.answers.map Prod.fst).count other = s.outstanding other := by
  unfold deliverData
  split
  · rfl
  · rfl
  · split
    · rfl
    · exact outstanding_remove ..
    · exact outstanding_remove ..
    · exact outstanding_remove ..

theorem Calm.outstanding (h : s.Calm t) (request : UInt32) :
    t.outstanding request = s.outstanding request := by
  rw [h.rest]
  rfl

theorem outstanding_register (request other : UInt32) (url : CompanionUrl) (ask : Ask) :
    (s.register shared request url ask).1.outstanding other +
        ((s.register shared request url ask).2.answers.map Prod.fst).count other =
      s.outstanding other := by
  unfold register
  split
  next hmem =>
    have hperm := (perm_cons_erase hmem).count_eq other
    rw [count_cons] at hperm
    dsimp only
    split
    · show (s.reserved.erase request).count other + s.awaited.count other + [request].count other =
        s.reserved.count other + s.awaited.count other
      rw [hperm, count_singleton]
      omega
    · have hanswer := @outstanding_answer { s with reserved := s.reserved.erase request } request
        other .wentAway
      rw [Calm.outstanding (.sendTo _ _), outstanding_setRead]
      simp only [Inner.outstanding, count_cons] at hanswer ⊢
      rw [reserved_answer] at hanswer ⊢
      omega
  · rfl

/-- **Every id drawn** is outstanding until it is answered. -/
theorem outstanding_step (action : Action) (request : UInt32) :
    (s.step shared action).1.outstanding request +
        ((s.step shared action).2.answers.map Prod.fst).count request =
      s.outstanding request + (s.draws action).count request := by
  cases action with
  | applyCommand env id =>
    simp only [step]
    rcases @applyCommand_cases shared s env id with ⟨-, hcalm, hnone⟩ | ⟨-, hhello⟩ |
      ⟨_, _, _, -, hinfo⟩ | ⟨part, -, hdata⟩
    · rw [hnone, hcalm.outstanding]
      rfl
    · rw [hhello]
      rfl
    · rw [hinfo]
      exact outstanding_deliverInfo ..
    · rw [hdata]
      exact outstanding_deliverData ..
  | reserve =>
    show (s.nextRequest :: s.reserved).count request + s.awaited.count request + 0 =
      s.outstanding request + [s.nextRequest].count request
    rw [count_cons, count_singleton, outstanding]
    omega
  | register request' url ask => exact outstanding_register ..
  | leave id =>
    simp only [step, leave]
    split
    · rfl
    · split <;> rfl
  | abandon id =>
    simp only [step, abandon]
    split
    · rfl
    next entry hentry =>
      have hperm := (filter_append_perm (fun other =>
        (s.reads other).any (PendingRead.ownedBy entry.provider)) s.awaited).count_eq request
      rw [count_append] at hperm
      simp only [outstanding, map_map, Function.comp_def, map_id', draws]
      rw [count_nil]
      omega
  | release id =>
    simp only [step, release]
    split <;> rfl
  | timeOut request' =>
    simp only [step]
    split
    · split
      · exact outstanding_answer ..
      · rfl
    · rfl
  | forget request' =>
    simp only [step]
    split
    · exact outstanding_answer ..
    · rfl
  | connectJson | connectV4 now => rfl
  | _ =>
    rw [(calm_step _ rfl).2, (calm_step _ rfl).1.outstanding]
    rfl

/-! ## Who may still answer -/

/-- Connection `id` holds the provider id, or has left it with its reads still
to be abandoned. -/
def Answerable (inner : Inner) (id : ℕ) (provider : UInt16) : Prop :=
  inner.provider? id = some provider ∨ (⟨id, provider, false⟩ : Leaving) ∈ inner.leaving

section

variable (h : s.Answerable id provider)
include h

theorem Answerable.provides :
    s.Provides id provider := h.imp_right fun hleft => ⟨false, hleft⟩

theorem Answerable.keep
    (hprovider : t.provider? id = s.provider? id) (hleaving : t.leaving = s.leaving) :
    t.Answerable id provider := by
  rw [Answerable, hprovider, hleaving]
  exact h

theorem Answerable.calm (hcalm : s.Calm t) : t.Answerable id provider :=
  h.keep (hcalm.provider? id) (by rw [hcalm.rest])

theorem Answerable.tables (ht : s.TablesOnly t) : t.Answerable id provider :=
  h.keep (by rw [Inner.provider?, Inner.provider?, ht.peers]) ht.leaving

theorem Answerable.hello {other : ℕ}
    (hfirst : s.provider? other = none) : (s.companionHello shared other).Answerable id provider := by
  rcases h with hconnected | hleft
  · have hne : id ≠ other := by
      rintro rfl
      rw [hfirst] at hconnected
      cases hconnected
    refine .inl ?_
    rw [companionHello, Inner.provider?, onPeer_of_ne _ hne]
    exact hconnected
  · exact .inr hleft

theorem Answerable.leave (other : ℕ) :
    (s.leave other).Answerable id provider := by
  unfold Inner.leave
  cases hpeer : s.peers other with
  | none => exact h
  | some peer =>
    have hgone : ({ s.setPeer other none with leaving := s.leaving ++
        (peer.session.companionProvider.map fun provider =>
          (⟨other, provider, false⟩ : Leaving)).toList } : Inner).Answerable id provider := by
      rcases h with hconnected | hleft
      · by_cases hid : id = other
        · subst hid
          rw [Inner.provider?, hpeer, Option.bind_some] at hconnected
          refine .inr (mem_append_right _ ?_)
          rw [hconnected]
          exact mem_singleton_self _
        · exact .inl (by rwa [Inner.provider?, setPeer_of_ne _ hid])
      · exact .inr (mem_append_left _ hleft)
    dsimp only
    split
    · exact h
    · exact hgone
    · exact hgone

/-- Abandoning reads leaves none of the provider id whose reads are abandoned.
-/
theorem Answerable.abandon (other : ℕ) : (s.abandon other).1.Answerable id provider ∨
      ∀ request read, (s.abandon other).1.reads request = some read →
        read.url.provider ≠ provider := by
  unfold Inner.abandon
  split
  · exact .inl h
  next entry hentry =>
    rcases h with hconnected | hleft
    · exact .inl (.inl hconnected)
    · by_cases heq : (⟨id, provider, false⟩ : Leaving) = entry
      · refine .inr fun request read hread hprovider => ?_
        dsimp only at hread
        split at hread
        · cases hread
        next hkept =>
          refine hkept ?_
          rw [hread, ← heq, Option.any_some, PendingRead.ownedBy, hprovider]
          exact beq_self_eq_true _
      · exact .inl (.inr (mem_map.mpr ⟨_, hleft, if_neg heq⟩))

theorem Answerable.release (other : ℕ) : (s.release other).Answerable id provider := by
  unfold Inner.release
  split
  · exact h
  next entry hentry =>
    refine h.imp_right fun hleft => mem_filter.mpr ⟨hleft, decide_eq_true fun heq => ?_⟩
    have habandoned := find?_some hentry
    rw [← heq] at habandoned
    simp at habandoned

end

/-- **One step**: who could answer a read still can, unless the read is gone. -/
theorem answerable_step (hprovided : s.Provided) (hproper : s.Proper action)
    (h : s.Answerable id provider) :
    (s.step shared action).1.Answerable id provider ∨
      ∀ request read, (s.step shared action).1.reads request = some read →
        read.url.provider ≠ provider := by
  have hopened : ∀ peer, ({ s.setPeer s.nextPeer (some peer) with nextPeer := s.nextPeer + 1 } :
      Inner).Answerable id provider := by
    intro peer
    refine h.imp_left fun hconnected => ?_
    have hne : id ≠ s.nextPeer := by
      rintro rfl
      obtain ⟨other, hother, -⟩ := Option.bind_eq_some_iff.mp hconnected
      exact Nat.lt_irrefl _ (hprovided.below _ other hother)
    rw [Inner.provider?, setPeer_of_ne _ hne]
    exact hconnected
  have hbookkeeping : Action.bookkeeping action = true →
      (s.step shared action).1.Answerable id provider := by
    intro haction
    obtain ⟨u, htables, hcalm⟩ := @bookkeeping_step shared s action haction
    exact (h.tables htables).calm hcalm
  cases hroutes : Action.routes action with
  | false => exact .inl (h.calm (calm_step action hroutes).1)
  | true =>
    cases action with
    | connectJson | connectV4 now => exact .inl (hopened _)
    | applyCommand env other =>
      have htaken := h.calm (calm_taken s other)
      simp only [Inner.step]
      rcases @applyCommand_cases shared s env other with ⟨-, hcalm, -⟩ | ⟨hcarried, hhello⟩ |
        ⟨_, _, _, -, hinfo⟩ | ⟨part, -, hdata⟩
      · exact .inl (h.calm hcalm)
      · rw [hhello]
        exact .inl (htaken.hello (((calm_taken s other).provider? other).trans
          (hproper _ hcarried).1))
      · rw [hinfo]
        exact .inl (htaken.tables (tablesOnly_deliverInfo ..))
      · rw [hdata]
        exact .inl (htaken.tables (tablesOnly_deliverData ..))
    | leave other => exact .inl (h.leave other)
    | abandon other => exact h.abandon other
    | release other => exact .inl (h.release other)
    | reserve | register request url ask | timeOut request | forget request =>
      exact .inl (hbookkeeping rfl)
    | _ => cases hroutes

end Inner

/-! ## Reads over a run -/

/-- The receiver, and what a run says of its reads. -/
structure Routed where
  inner : Inner
  /-- The connection that the request of a read was queued to. -/
  asked : UInt32 → Option ℕ
  /-- The parts that have come in for a read, each with the connection it came
  from. -/
  came : UInt32 → List (ℕ × ResourcePart)
  /-- The request ids drawn. -/
  drawn : List UInt32
  answers : List (UInt32 × Answer)

namespace Routed

open Castaway.FCast.Inner (Action)

variable {shared : Shared} {r : Routed}

def new : Routed := ⟨.new, fun _ => none, fun _ => [], [], []⟩

def step (shared : Shared) (r : Routed) (action : Action) : Routed where
  inner := (r.inner.step shared action).1
  asked := match r.inner.registers action with
    | some (request, owner) => update r.asked request (some owner)
    | none => r.asked
  came := match r.inner.registers action, r.inner.delivers action with
    | some (request, _), _ => update r.came request []
    | none, some (id, part) =>
      update r.came part.requestId (r.came part.requestId ++ [(id, part)])
    | none, none => r.came
  drawn := r.drawn ++ r.inner.draws action
  answers := r.answers ++ (r.inner.step shared action).2.answers

def run (shared : Shared) (actions : List Action) : Routed := actions.foldl (step shared) new

theorem run_concat (shared : Shared) (actions : List Action) (action : Action) :
    run shared (actions ++ [action]) = (run shared actions).step shared action :=
  foldl_concat ..

theorem run_inner (shared : Shared) (actions : List Action) :
    (run shared actions).inner = Inner.run shared actions := by
  induction actions using List.reverseRecOn with
  | nil => rfl
  | append_singleton actions action ih =>
    rw [run_concat, Inner.run_concat, ← ih]
    rfl

/-- The table of ids is exact, the request of every pending read went to a
connection that may still answer it, and its parts came from there. -/
structure Traced (r : Routed) : Prop where
  provided : r.inner.Provided
  asked : ∀ request read, r.inner.reads request = some read →
    ∃ id, r.asked request = some id ∧ r.inner.Answerable id read.url.provider
  came : ∀ request url read, r.inner.reads request = some ⟨url, .data read⟩ →
    Gathered ((r.came request).map Prod.snd) read ∧
      ∀ entry ∈ r.came request, r.asked request = some entry.1

/-- Who answers a pending read by the rules is who was asked. -/
theorem Traced.asked_eq (h : r.Traced) {id : ℕ} {request : UInt32} {read : PendingRead}
    (hread : r.inner.reads request = some read)
    (hholds : r.inner.provider? id = some read.url.provider) : r.asked request = some id := by
  obtain ⟨other, hasked, hanswerable⟩ := h.asked request read hread
  rw [hasked, h.provided.unique other id _ hanswerable.provides (.inl hholds)]

/-- A part that comes for a pending read comes from who was asked. -/
theorem Traced.asked_of_delivers (h : r.Traced) {action : Action} (hproper : r.inner.Proper action)
    {id : ℕ} {part : ResourcePart} (hdelivers : r.inner.delivers action = some (id, part))
    {url : CompanionUrl} {read : ResourceRead}
    (hread : r.inner.reads part.requestId = some ⟨url, .data read⟩) :
    r.asked part.requestId = some id := by
  obtain ⟨env, rfl, hcarried⟩ := Inner.delivers_eq_some.mp hdelivers
  exact h.asked_eq hread (hproper _ hcarried url read hread)

theorem registers_of_delivers {inner : Inner} {action : Action} {id : ℕ} {part : ResourcePart}
    (h : inner.delivers action = some (id, part)) : inner.registers action = none := by
  obtain ⟨env, rfl, -⟩ := Inner.delivers_eq_some.mp h
  rfl

/-- **One step** that keeps to the rules. -/
theorem Traced.step (h : r.Traced) {action : Action} (hproper : r.inner.Proper action) :
    (r.step shared action).Traced := by
  have hasked_of_ne : ∀ request, (∀ owner, r.inner.registers action ≠ some (request, owner)) →
      (r.step shared action).asked request = r.asked request := by
    intro request hnot
    cases hregisters : r.inner.registers action with
    | none => simp only [Routed.step, hregisters]
    | some registered =>
      have hne : request ≠ registered.1 := fun heq => hnot registered.2 (by rw [hregisters, heq])
      simp only [Routed.step, hregisters, update_of_ne hne]
  have hcame_of_ne : ∀ request, (∀ owner, r.inner.registers action ≠ some (request, owner)) →
      (∀ id part, r.inner.delivers action = some (id, part) → part.requestId ≠ request) →
        (r.step shared action).came request = r.came request := by
    intro request hnot hnone
    cases hregisters : r.inner.registers action with
    | some registered =>
      have hne : request ≠ registered.1 := fun heq => hnot registered.2 (by rw [hregisters, heq])
      simp only [Routed.step, hregisters, update_of_ne hne]
    | none =>
      cases hdelivers : r.inner.delivers action with
      | none => simp only [Routed.step, hregisters, hdelivers]
      | some delivered =>
        have hne : request ≠ delivered.2.requestId :=
          Ne.symm (hnone delivered.1 delivered.2 hdelivers)
        simp only [Routed.step, hregisters, hdelivers, update_of_ne hne]
  refine ⟨h.provided.step hproper, fun request after hafter => ?_, fun request url after hafter => ?_⟩
  · -- who was asked may still answer, or the read would be gone
    have hstill : ∀ id, r.inner.Answerable id after.url.provider →
        (r.step shared action).inner.Answerable id after.url.provider := by
      intro id hanswerable
      rcases Inner.answerable_step h.provided hproper hanswerable with hkept | hgone
      · exact hkept
      · exact absurd rfl (hgone request after hafter)
    rcases Inner.reads_step hafter with ⟨hread, hnot, -⟩ |
      ⟨owner, url, ask, hregisters, hholds, rfl⟩ |
      ⟨id, part, url, read, read', hdelivers, rfl, hread, -, rfl⟩
    · obtain ⟨id, hasked, hanswerable⟩ := h.asked request after hread
      exact ⟨id, (hasked_of_ne request hnot).trans hasked, hstill id hanswerable⟩
    · refine ⟨owner, ?_, hstill owner (.inl hholds)⟩
      simp only [Routed.step, hregisters, update_self]
    · obtain ⟨id, hasked, hanswerable⟩ := h.asked _ _ hread
      refine ⟨id, (hasked_of_ne _ fun owner => ?_).trans hasked, hstill id hanswerable⟩
      rw [registers_of_delivers hdelivers]
      exact fun h => by cases h
  · rcases Inner.reads_step hafter with ⟨hread, hnot, hkind⟩ |
      ⟨owner, url', ask, hregisters, -, hnew⟩ |
      ⟨id, part, url', read, read', hdelivers, rfl, hread, hpush, hnew⟩
    · have hsilent : ∀ id part, r.inner.delivers action = some (id, part) →
          part.requestId ≠ request := by
        intro id part hdelivers heq
        cases hkind id part hdelivers heq
      rw [hcame_of_ne request hnot hsilent, hasked_of_ne request hnot]
      exact h.came request url after hread
    · cases ask with
      | info => cases hnew
      | range start stop =>
        cases hnew
        have hempty : (r.step shared action).came request = [] := by
          simp only [Routed.step, hregisters, update_self]
        rw [hempty]
        exact ⟨gathered_new, fun _ hmem => absurd hmem not_mem_nil⟩
    · cases hnew
      obtain ⟨hgathered, hfrom⟩ := h.came _ _ _ hread
      have hregisters := registers_of_delivers hdelivers
      have hasked := h.asked_of_delivers hproper hdelivers hread
      have hcame : (r.step shared action).came part.requestId =
          r.came part.requestId ++ [(id, part)] := by
        simp only [Routed.step, hregisters, hdelivers, update_self]
      have hsame : (r.step shared action).asked part.requestId = r.asked part.requestId :=
        hasked_of_ne _ fun owner => by rw [hregisters]; exact fun h => by cases h
      rw [hcame, hsame]
      refine ⟨?_, fun entry hentry => ?_⟩
      · rw [map_append]
        exact hgathered.push_more hpush
      · rcases mem_append.mp hentry with hold | hlast
        · exact hfrom entry hold
        · cases mem_singleton.mp hlast
          exact hasked

/-- A run whose steps all keep to the rules. -/
def AllProper (shared : Shared) (actions : List Action) : Prop :=
  Along (fun inner action => (inner.step shared action).1) Inner.Proper actions .new

theorem traced_new : Traced new where
  provided := {
    mem := fun provider => ⟨fun h => absurd h not_mem_nil, fun ⟨id, h⟩ => by
      rcases h with hconnected | ⟨abandoned, hleft⟩
      · cases hconnected
      · cases hleft⟩
    unique := fun id other provider h => by
      rcases h with hconnected | ⟨abandoned, hleft⟩
      · cases hconnected
      · cases hleft
    left := fun entry hentry => absurd hentry not_mem_nil
    once := nodup_nil
    below := fun id peer hpeer => by cases hpeer
    typed := fun id peer hpeer => by cases hpeer }
  asked := fun request read hread => by cases hread
  came := fun request url read hread => by cases hread

theorem traced_run (shared : Shared) (actions : List Action) (h : AllProper shared actions) :
    (run shared actions).Traced := by
  induction actions using List.reverseRecOn with
  | nil => exact traced_new
  | append_singleton actions action ih =>
    obtain ⟨hbefore, hlast, -⟩ := along_append.mp h
    rw [run_concat]
    refine (ih hbefore).step ?_
    rw [run_inner]
    exact hlast

/-! ## What is promised of reads -/

/-- Every id that was drawn is outstanding or was answered, as often as it was
drawn. -/
theorem drawn_count (shared : Shared) (actions : List Action) (request : UInt32) :
    (run shared actions).drawn.count request =
      (run shared actions).inner.outstanding request +
        ((run shared actions).answers.map Prod.fst).count request := by
  induction actions using List.reverseRecOn with
  | nil => rfl
  | append_singleton actions action ih =>
    have hstep := @Inner.outstanding_step shared (run shared actions).inner action request
    rw [run_concat]
    simp only [Routed.step, count_append, map_append]
    omega

/-- An answer that a packet gave came from the connection that was asked: what a
resource is as that connection says, its bytes as all the parts that came for
the read, every one from there. -/
def FromAsked (shared : Shared) (r : Routed) (action : Action) : Prop :=
  ∀ request answer, (request, answer) ∈ (r.inner.step shared action).2.answers →
    ¬ Inner.Lost answer → ∃ env id, action = .applyCommand env id ∧ r.asked request = some id ∧
      (∀ contentType size, answer = .info contentType size →
        r.inner.carried id = some (.companionInfo request contentType size)) ∧
      ∀ bytes, answer = .data bytes → ∃ part,
        r.inner.carried id = some (.companionData part) ∧ part.requestId = request ∧
        (∀ entry ∈ r.came request, entry.1 = id) ∧
        Whole ((r.came request).map Prod.snd ++ [part]) bytes

/-- The reads that a disconnect abandons are those that were asked of its
connection. -/
def AbandonsOwn (r : Routed) (action : Action) : Prop :=
  ∀ id, action = .abandon id →
    (∃ entry ∈ r.inner.leaving, entry.peer = id ∧ entry.abandoned = false) →
      ∀ request read, r.inner.reads request = some read →
        ((r.inner.abandon id).1.reads request = none ↔ r.asked request = some id)

theorem Traced.fromAsked (h : r.Traced) {action : Action} (hproper : r.inner.Proper action) :
    FromAsked shared r action := by
  intro request answer hanswer hgiven
  rcases Inner.answers_step hanswer with hlost |
    ⟨env, id, contentType, size, url, rfl, hcarried, hread, rfl⟩ |
    ⟨id, part, url, read, hdelivers, rfl, hread, hinfo, hpush⟩
  · exact absurd hlost hgiven
  · have hholds := hproper _ hcarried url hread
    refine ⟨env, id, rfl, h.asked_eq hread hholds, fun _ _ heq => ?_,
      fun _ h => (by cases h)⟩
    cases heq
    exact hcarried
  · have hasked := h.asked_of_delivers hproper hdelivers hread
    obtain ⟨env, rfl, hcarried⟩ := Inner.delivers_eq_some.mp hdelivers
    obtain ⟨hgathered, hfrom⟩ := h.came _ _ _ hread
    refine ⟨env, id, rfl, hasked, fun contentType size heq => ?_, fun bytes heq => ?_⟩
    · exact absurd heq (hinfo contentType size)
    · obtain ⟨read', hcomplete⟩ := hpush bytes heq
      refine ⟨part, hcarried, rfl, fun entry hentry => ?_, hgathered.push_complete hcomplete⟩
      exact Option.some.inj ((hfrom entry hentry).symm.trans hasked)

theorem Traced.abandonsOwn (h : r.Traced) (action : Action) : AbandonsOwn r action := by
  rintro id rfl ⟨entry, hentry, rfl, hnot⟩ request read hread
  -- the disconnect under way is the only one of this connection
  have hfound : r.inner.leaving.find? (fun other =>
      other.peer == entry.peer && !other.abandoned) = some entry := by
    cases hfind : r.inner.leaving.find? fun other =>
        other.peer == entry.peer && !other.abandoned with
    | none => simpa [hnot] using List.find?_eq_none.mp hfind entry hentry
    | some other =>
      have hsame := find?_some hfind
      rw [Bool.and_eq_true, beq_iff_eq] at hsame
      rw [inj_on_of_nodup_map h.provided.once (mem_of_find?_eq_some hfind) hentry hsame.1]
  have hgone : (r.inner.abandon entry.peer).1.reads request = none ↔
      read.url.provider = entry.provider := by
    simp only [Inner.abandon, hfound, hread, Option.any_some, Inner.PendingRead.ownedBy, beq_iff_eq]
    split
    next howned => exact iff_of_true rfl howned
    next hother => exact iff_of_false (fun h => by cases h) hother
  obtain ⟨owner, hasked, hanswerable⟩ := h.asked request read hread
  have hheld : r.inner.Provides entry.peer entry.provider := .inr ⟨entry.abandoned, hentry⟩
  rw [hgone, hasked]
  constructor
  · intro hprovider
    rw [← hprovider] at hheld
    rw [h.provided.unique _ _ _ hanswerable.provides hheld]
  · intro howner
    cases howner
    rcases hanswerable with hconnected | hleft
    · rw [Inner.provider?, (h.provided.left entry hentry).1] at hconnected
      cases hconnected
    · have hsame := inj_on_of_nodup_map h.provided.once hleft hentry rfl
      exact congrArg Leaving.provider hsame

theorem promised_run (shared : Shared) (actions : List Action) (h : AllProper shared actions) :
    Along (step shared) (fun r action => FromAsked shared r action ∧ AbandonsOwn r action)
      actions new := by
  induction actions using List.reverseRecOn with
  | nil => trivial
  | append_singleton actions action ih =>
    obtain ⟨hbefore, hlast, -⟩ := along_append.mp h
    have htraced := traced_run shared actions hbefore
    have hproper : (run shared actions).inner.Proper action := by
      rw [run_inner]
      exact hlast
    exact along_append.mpr ⟨ih hbefore, ⟨htraced.fromAsked hproper, htraced.abandonsOwn action⟩,
      trivial⟩

/-- **Companion reads are routed, answered and released exactly**, in every run
in which a connection asks for a provider id once, and while one is free, and
only the holder of a provider id answers its reads. -/
theorem reads_routed (shared : Shared) (actions : List Action) (h : AllProper shared actions) :
    (∀ provider, provider ∈ (run shared actions).inner.providers ↔
      ∃ id, (run shared actions).inner.Provides id provider) ∧
    (∀ id other provider, (run shared actions).inner.Provides id provider →
      (run shared actions).inner.Provides other provider → id = other) ∧
    (∀ request, ((run shared actions).answers.map Prod.fst).count request ≤
      (run shared actions).drawn.count request) ∧
    (∀ request read, (run shared actions).inner.reads request = some read →
      ∃ id, (run shared actions).asked request = some id ∧
        (run shared actions).inner.Answerable id read.url.provider) ∧
    Along (step shared) (fun r action => FromAsked shared r action ∧ AbandonsOwn r action)
      actions new := by
  have htraced := traced_run shared actions h
  refine ⟨htraced.provided.mem, htraced.provided.unique, fun request => ?_, htraced.asked,
    promised_run shared actions h⟩
  rw [drawn_count]
  exact Nat.le_add_left ..

/-! ### Two phones -/

def asksHello (id : ℕ) : List Action :=
  [.v4Frame id 0 (.flatbuf (some .companionHelloRequest)), .applyCommand Inner.exampleEnv id]

def sendsPart (id : ℕ) (bytes : Bytes) : Action :=
  .v4Frame id 0 (.resource (some ⟨1, 0, 1, .data bytes⟩))

/-- Two phones connect, and a file of the first is read. -/
def fileAsked : List Action :=
  [.connectV4 0, .connectV4 0] ++ asksHello 0 ++
    [.reserve, .register 1 ⟨0, 7⟩ (.range 0 1)]

theorem allProper_file : AllProper Inner.exampleShared
    (fileAsked ++ [sendsPart 0 [1, 2], .applyCommand Inner.exampleEnv 0]) := by
  refine ⟨trivial, trivial, trivial, ?_, trivial, trivial, trivial, ?_, trivial⟩
  · intro command hcommand
    cases hcommand
    exact ⟨rfl, 0, not_mem_nil⟩
  · intro command hcommand
    cases hcommand
    intro url read hread
    cases hread
    rfl

theorem reads_routed_file :
    (run Inner.exampleShared (fileAsked ++ [sendsPart 0 [1, 2],
      .applyCommand Inner.exampleEnv 0])).answers = [(1, .data [1, 2])] ∧
    Along (step Inner.exampleShared)
      (fun r action => FromAsked Inner.exampleShared r action ∧ AbandonsOwn r action)
      (fileAsked ++ [sendsPart 0 [1, 2], .applyCommand Inner.exampleEnv 0]) new :=
  ⟨rfl, (reads_routed Inner.exampleShared _ allProper_file).2.2.2.2⟩

/-- A phone that asks for a provider id twice leaves the first one taken for
good, and a read of one phone's file is completed with what another phone sends.
-/
theorem reads_misrouted :
    (0 ∈ (run Inner.exampleShared ([.connectV4 0] ++ asksHello 0 ++ asksHello 0 ++
        [.leave 0, .abandon 0, .release 0])).inner.providers ∧
      ∀ id, ¬ (run Inner.exampleShared ([.connectV4 0] ++ asksHello 0 ++ asksHello 0 ++
        [.leave 0, .abandon 0, .release 0])).inner.Provides id 0) ∧
    ¬ FromAsked Inner.exampleShared (run Inner.exampleShared (fileAsked ++ [sendsPart 1 [6, 6, 6]]))
      (.applyCommand Inner.exampleEnv 1) := by
  refine ⟨⟨mem_singleton_self 0, fun id hid => ?_⟩, fun h => ?_⟩
  · rcases hid with hconnected | ⟨abandoned, hleft⟩
    · rcases id with _ | id <;> cases hconnected
    · exact absurd hleft not_mem_nil
  · obtain ⟨env, id, happly, hasked, -⟩ :=
      h 1 (.data [6, 6, 6]) (mem_singleton_self _) not_false
    cases happly
    cases hasked

end Routed

end Castaway.FCast
